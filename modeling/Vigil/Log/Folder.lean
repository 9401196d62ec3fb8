/-!
# Folders and files

Log files lie in a tree of folders. A path is a way from the folder in which the program runs, one
part after the other; it can lead up and out of that folder, where every folder on the way up is
there. A file or folder is known by its place, which is where such a way ends.
-/

namespace Vigil.Log

/-- A way or a place, the last part first. `..` stands for a step up and `/` for the outermost
folder. In a place both stand only at its end. -/
abbrev Place := List String

namespace Place

/-- The place that one more part leads to. -/
def enter (place : Place) (part : String) : Place :=
  if part == "/" then ["/"]
  else if part == ".." then
    match place with
    | [] => [".."]
    | last :: before =>
        if last == ".." then ".." :: place else if last == "/" then place else before
  else part :: place

/-- The parts of a path, which is split at its slashes; `part` is what was read of the current part,
the last character first. -/
def partsFrom (part : List Char) : List Char → List String
  | [] => [String.ofList part.reverse]
  | c :: cs =>
      if c == '/' then String.ofList part.reverse :: partsFrom [] cs else partsFrom (c :: part) cs

/-- The way that a path describes. Empty parts and single dots lead nowhere. -/
def wayOf (path : String) : Place :=
  let parts := (partsFrom [] path.toList).filter fun part => part != "" && part != "."
  let start := if path.toList.head? == some '/' then ["/"] else []
  (start ++ parts).reverse

def endOf (way : Place) : Place := way.reverse.foldl enter []

/-- The working folder or one that contains it. -/
def isAbove (place : Place) : Bool := place.all fun part => part == ".." || part == "/"

/-- The place lies in the working folder or deeper. -/
def isWithin (place : Place) : Bool :=
  match place.getLast? with
  | none => true
  | some outermost => outermost != ".." && outermost != "/"

def text (place : Place) : String := String.intercalate "/" place.reverse

end Place

inductive Obstacle where
  /-- A folder on the way is missing. -/
  | missing
  /-- Something on the way is a file. -/
  | notAFolder
  /-- There is a file where a folder is wanted. -/
  | taken
  /-- There is a folder where a file is wanted. -/
  | isFolder
  | nameTooLong
  /-- No name has such a character. -/
  | badCharacter
  deriving DecidableEq, Repr, Inhabited

/-- The folders and files that were created, in order. -/
structure Tree where
  folders : List Place
  files : List Place
  deriving Inhabited

namespace Tree

/-- Nothing but the working folder and those around it. -/
def empty : Tree := ⟨[], []⟩

/-- The greatest length of a name in bytes. -/
def longestName : Nat := 255

def hasFolder (t : Tree) (place : Place) : Bool := place.isAbove || t.folders.contains place

def hasFile (t : Tree) (place : Place) : Bool := t.files.contains place

/-- The paths of the files in the working folder. -/
def paths (t : Tree) : List String := (t.files.filter Place.isWithin).map Place.text

/-- The folder at the end of some parts from a place on. -/
def reach (t : Tree) (place : Place) : List String → Except Obstacle Place
  | [] => .ok place
  | part :: parts =>
      let next := place.enter part
      if longestName < part.utf8ByteSize then .error .nameTooLong
      else if t.hasFolder next then t.reach next parts
      else if t.hasFile next then .error .notAFolder
      else .error .missing

/-- Creates the folder at the end of a way, unless it is there. -/
def makeFolder (t : Tree) : Place → Except Obstacle Tree
  | [] => .ok t
  | last :: before => do
      let place := (← t.reach [] before.reverse).enter last
      if longestName < last.utf8ByteSize then .error .nameTooLong
      else if t.hasFolder place then .ok t
      else if t.hasFile place then .error .taken
      else .ok { t with folders := t.folders ++ [place] }

/-- Creates the folder at the end of a way, and first those on the way if one of them is missing. -/
def makeFolders (t : Tree) : Place → Tree × Except Obstacle Unit
  | [] => (t, .ok ())
  | last :: before =>
      match t.makeFolder (last :: before) with
      | .ok t => (t, .ok ())
      | .error .missing =>
          match t.makeFolders before with
          | (t, .error obstacle) => (t, .error obstacle)
          | (t, .ok ()) =>
              match t.makeFolder (last :: before) with
              | .ok t => (t, .ok ())
              | .error obstacle => (t, .error obstacle)
      | .error obstacle => (t, .error obstacle)

/-- Creates the file at a place whose folder is there, unless it is there itself. -/
def makeFile (t : Tree) (place : Place) : Except Obstacle Tree :=
  if t.hasFolder place then .error .isFolder
  else if (place.head?.map fun name => decide (longestName < name.utf8ByteSize)).getD false then
    .error .nameTooLong
  else if t.hasFile place then .ok t
  else .ok { t with files := t.files ++ [place] }

/-- No name has the character with the number zero. -/
def isBad (path : String) : Bool := path.toList.contains '\x00'

/-- Creates the folders on the way to what a path describes. -/
def prepare (t : Tree) (path : String) : Tree × Except Obstacle Unit :=
  let before := (Place.wayOf path).tail
  if before.any isBad then (t, .error .badCharacter) else t.makeFolders before

/-- Creates the file that a path describes, with the folders it lies in, and gives its place. Steps
up are taken back before anything is looked for. -/
def openFile (t : Tree) (path : String) : Tree × Except Obstacle Place :=
  let place := Place.endOf (Place.wayOf path)
  if isBad path then (t, .error .badCharacter)
  else
    match t.makeFolders place.tail with
    | (t, .error obstacle) => (t, .error obstacle)
    | (t, .ok ()) =>
        match t.makeFile place with
        | .ok t => (t, .ok place)
        | .error obstacle => (t, .error obstacle)

end Tree

end Vigil.Log
