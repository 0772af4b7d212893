import SchemaTypings.Error
import SchemaTypings.PathName
import SchemaTypings.Text.Utf8

/-!
File trees: directories and files below a root, the operations on them, and what they refuse. A path
name is resolved part by part, from the root or from a current directory; two dots lead to the
parent of what is there. A name has at most 255 bytes, and a path name at most 4095. The device
below a tree may fail while a file is written, which then has a first part of its bytes.
-/

namespace SchemaTypings

/-- A place in a file tree: the names that lead to it from the root. -/
abbrev Place := List Text

/-- What is at a place. -/
inductive Node
  | directory
  | file (bytes : List Byte)
deriving DecidableEq, Repr

/-- How a device fails that is given bytes for a file: it has stored as many of them, and no more. -/
structure Failure where
  stored : Nat
  fault : StorageFault
deriving DecidableEq, Repr

/-- The error that a failing device ends in. -/
def Failure.error (f : Failure) : SystemError := ⟨.storage f.fault, none⟩

/-- The nodes below the root directory, in the order in which they came to be, and the place of the
current directory. -/
structure FileTree where
  nodes : List (Place × Node)
  home : Place
  distinct : (nodes.map (·.1)).Nodup
  /-- What befalls bytes that are given to the device for the file at a place, if anything does. -/
  device : Place → List Byte → Option Failure := fun _ _ => none

namespace FileTree

/-- The tree with nothing in it. -/
def empty : FileTree where
  nodes := []
  home := []
  distinct := List.nodup_nil

/-- What is at a place; the root directory is there always. -/
def node? (tree : FileTree) (place : Place) : Option Node :=
  if place.isEmpty then some .directory
  else (tree.nodes.find? fun e => e.1 = place).map (·.2)

/-- The nodes with `node` at `place`. -/
def setNode (nodes : List (Place × Node)) (place : Place) (node : Node) : List (Place × Node) :=
  match nodes with
  | [] => [(place, node)]
  | e :: rest => if e.1 = place then (place, node) :: rest else e :: setNode rest place node

theorem places_setNode (nodes : List (Place × Node)) (place : Place) (node : Node) :
    (setNode nodes place node).map (·.1) =
      if place ∈ nodes.map (·.1) then nodes.map (·.1) else nodes.map (·.1) ++ [place] := by
  induction nodes with
  | nil => simp [setNode]
  | cons e rest ih =>
    by_cases h : e.1 = place
    · simp [setNode, h]
    · have h' : ¬place = e.1 := fun hp => h hp.symm
      simp only [setNode, h, if_false, List.map_cons, ih, List.mem_cons, h', false_or]
      split <;> simp

/-- The tree with `node` at `place`. -/
def set (tree : FileTree) (place : Place) (node : Node) : FileTree where
  nodes := setNode tree.nodes place node
  home := tree.home
  device := tree.device
  distinct := by
    rw [places_setNode]
    split
    · exact tree.distinct
    · rename_i h
      refine List.nodup_append.2 ⟨tree.distinct, by simp, fun a ha b hb hab => ?_⟩
      simp only [List.mem_singleton] at hb
      subst hb; subst hab
      exact h ha

@[simp] theorem home_set (tree : FileTree) (place : Place) (node : Node) :
    (tree.set place node).home = tree.home := rfl

@[simp] theorem device_set (tree : FileTree) (place : Place) (node : Node) :
    (tree.set place node).device = tree.device := rfl

theorem find?_setNode (nodes : List (Place × Node)) (place : Place) (node : Node) (p : Place) :
    ((setNode nodes place node).find? fun e => e.1 = p).map (·.2) =
      if place = p then some node else (nodes.find? fun e => e.1 = p).map (·.2) := by
  induction nodes with
  | nil => by_cases h : place = p <;> simp [setNode, h]
  | cons e rest ih =>
    by_cases he : e.1 = place
    · by_cases h : place = p
      · simp [setNode, he, h]
      · have hp : ¬e.1 = p := fun hp => h (he.symm.trans hp)
        simp [setNode, he, h]
    · by_cases hp : e.1 = p
      · have h : ¬place = p := fun h => he (hp.trans h.symm)
        have h' : ¬p = place := fun h' => h h'.symm
        simp [setNode, hp, h, h']
      · simp only [setNode, he, if_false, List.find?_cons, hp, decide_false]
        exact ih

/-- A write is seen at its place and nowhere else. -/
theorem node?_set {tree : FileTree} {place : Place} (h : place ≠ []) (node : Node) (p : Place) :
    (tree.set place node).node? p = if place = p then some node else tree.node? p := by
  by_cases hp : p = []
  · subst hp; simp [node?, h]
  · simp [node?, hp, set, find?_setNode]

/-- The bytes of a code point in a file name. A surrogate from U+DC80 to U+DCFF stands for one byte
that is no text; any other has none. -/
def byteWidth? (c : CodePoint) : Option Nat :=
  if 0xDC80 ≤ c.val && c.val ≤ 0xDCFF then some 1 else c.utf8?.map List.length

/-- The number of bytes of a file name, if it has an encoding. -/
def nameWidth? (s : Text) : Option Nat := (s.mapM byteWidth?).map (List.foldl (· + ·) 0)

/-- The most bytes of one name. -/
def longestName : Nat := 255

/-- The most bytes of a path name. -/
def longestPath : Nat := 4095

/-- Refuses a path name that can be none of a file, whatever the tree. -/
def checkName (path : PathName) : Except Error Unit :=
  let text := path.toText
  match nameWidth? text with
  | none => .error .unencodable
  | some width =>
    if text.any fun c : CodePoint => c.val = 0 then .error .zeroInPath
    else if longestPath < width then .error (.system ⟨.nameTooLong, text⟩)
    else .ok ()

/-- The place that the parts lead to from the place `here`, whether or not something is there; all
before the last part must be directories. -/
def walk (tree : FileTree) (here : Place) : List Text → Except SystemFault Place
  | [] => .ok here
  | part :: rest =>
    match tree.node? here with
    | none => .error .notFound
    | some (.file _) => .error .notADirectory
    | some .directory =>
      if part = ".." then walk tree here.dropLast rest
      else if (nameWidth? part).any (longestName < ·) then .error .nameTooLong
      else walk tree (here ++ [part]) rest

/-- Where the parts of a path name lead from: the current directory, or the root. -/
def base (tree : FileTree) (path : PathName) : Place := if path.root.isEmpty then tree.home else []

/-- The place of a path name. -/
def resolve (tree : FileTree) (path : PathName) : Except Error Place := do
  checkName path
  (tree.walk (tree.base path) path.parts).mapError fun fault => .system ⟨fault, path.toText⟩

/-- The path name from the root that a path name spells, two dots taken back as it is read. -/
def absolute (tree : FileTree) (path : PathName) : PathName :=
  ⟨"/", path.parts.foldl (fun (place : Place) (part : Text) =>
    if part = ".." then place.dropLast else place ++ [part]) (tree.base path)⟩

/-- The place and the node of a path name. -/
def look (tree : FileTree) (path : PathName) : Except Error (Place × Node) := do
  let place ← tree.resolve path
  match tree.node? place with
  | some node => pure (place, node)
  | none => throw (.system ⟨.notFound, path.toText⟩)

/-- What is at a path name, if anything is; only a name that is too long is refused. -/
def probe (tree : FileTree) (path : PathName) : Except Error (Option (Place × Node)) :=
  match tree.look path with
  | .ok found => .ok (some found)
  | .error (.system e) => if e.fault = .nameTooLong then .error (.system e) else .ok none
  | .error _ => .ok none

/-- Whether something is at a path name. -/
def has (tree : FileTree) (path : PathName) : Except Error Bool :=
  (tree.probe path).map (·.isSome)

/-- Whether a file is at a path name. -/
def isFile (tree : FileTree) (path : PathName) : Except Error Bool :=
  (tree.probe path).map (·.any (·.2 ≠ .directory))

/-- Whether a directory is at a path name. -/
def isDirectory (tree : FileTree) (path : PathName) : Except Error Bool :=
  (tree.probe path).map (·.any (·.2 = .directory))

/-- The bytes of a file. -/
def read (tree : FileTree) (path : PathName) : Except Error (List Byte) := do
  match ← tree.look path with
  | (_, .file bytes) => pure bytes
  | (_, .directory) => throw (.system ⟨.isADirectory, path.toText⟩)

/-- The text of a file, with its line ends unified; none if its bytes are no text. -/
def readText (tree : FileTree) (path : PathName) : Except Error (Option Text) :=
  (tree.read path).map fun bytes => (Utf8.decode? bytes).map Text.unifyLineEnds

/-- The place of a path name at which a file is, or can be made. -/
def openFile (tree : FileTree) (path : PathName) : Except Error Place := do
  let place ← tree.resolve path
  match tree.node? place with
  | some .directory => throw (.system ⟨.isADirectory, path.toText⟩)
  | _ => pure place

/-- The bytes that the device stores of those that it is given for the file at `place`. -/
def stored (tree : FileTree) (place : Place) (bytes : List Byte) : List Byte :=
  match tree.device place bytes with
  | none => bytes
  | some failure => bytes.take failure.stored

/-- The tree with one new directory. -/
def makeOne (tree : FileTree) (path : PathName) : Except Error FileTree := do
  let place ← tree.resolve path
  match tree.node? place with
  | some _ => throw (.system ⟨.exists, path.toText⟩)
  | none => pure (tree.set place .directory)

/-- Whether the directory for a new one is missing. -/
def lacksAbove (tree : FileTree) (path : PathName) : Bool :=
  match tree.makeOne path with
  | .error (.system e) => e.fault = .notFound
  | _ => false

/-- The tree with a directory at `path`, and what became of it; a directory that is there stays. -/
def makeIn (tree : FileTree) (path : PathName) : FileTree × Except Error Unit :=
  match tree.makeOne path with
  | .ok tree => (tree, .ok ())
  | .error (.system e) =>
    (tree, do if ← tree.isDirectory path then pure () else throw (.system e))
  | .error e => (tree, .error e)

/-- The tree with a directory at the path of the first `n` parts of `path`, and those above it that
are missing. A directory that is refused leaves those above it, which were made before. -/
def makeUpTo (path : PathName) : Nat → FileTree → FileTree × Except Error Unit
  | 0, tree => tree.makeIn ⟨path.root, []⟩
  | above + 1, tree =>
    let here : PathName := ⟨path.root, path.parts.take (above + 1)⟩
    if tree.lacksAbove here then
      match makeUpTo path above tree with
      | (tree, .ok ()) => tree.makeIn here
      | (tree, .error e) => (tree, .error e)
    else tree.makeIn here

/-- The tree with a directory at `path` and those above it. -/
def makeDirectories (tree : FileTree) (path : PathName) : FileTree × Except Error Unit :=
  makeUpTo path path.parts.length tree

/-- The tree in which the file at `path` has the given bytes at its end, as many as the device
stores; a new one has no others. -/
def append (tree : FileTree) (path : PathName) (bytes : List Byte) : Except Error FileTree := do
  let place ← tree.openFile path
  let old :=
    match tree.node? place with
    | some (.file old) => old
    | _ => []
  pure (tree.set place (.file (old ++ tree.stored place bytes)))

/-- The places below `place`, at any depth, with their nodes. -/
def below (tree : FileTree) (place : Place) : List (Place × Node) :=
  tree.nodes.filterMap fun e =>
    if place.isPrefixOf e.1 && place.length < e.1.length then some (e.1.drop place.length, e.2)
    else none

end FileTree

end SchemaTypings
