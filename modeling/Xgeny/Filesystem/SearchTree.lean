import Mathlib.Data.Prod.Lex
import Mathlib.Data.String.Basic
import Xgeny.Filesystem.QueryOutput

set_option autoImplicit false

/-!
# Searching a directory tree

A search goes through the directories below a path, in the order of their names, and collects the
matches in the files. Every directory and file is opened again from the root. The search has limits on
the matches, the entries it visits and the bytes it reads; what it leaves out sets a flag.

* `TreeNode`, `DirectoryTree`: the tree;
* `readNames`, `searchNames`, `searchName`, `searchRegularFile`, `searchDirectory`: the search. It ends
  because the length of a path is bounded;
* `sortMatches`, `searchText`: the output.
-/

namespace Xgeny

/-! ## Trees -/

/-- The bytes of a regular file, and whether its metadata and its bytes can be read. -/
structure RegularFile where
  content : List UInt8
  measured : Bool
  readable : Bool

/-- What the iterator over a directory yields; reading the entry fails unless it is `yielded`. -/
structure DirEntry (α : Type) where
  name : List UInt8
  node : α
  yielded : Bool

/-- What a name stands for. Links, devices and what cannot be opened are `other`. -/
inductive TreeNode where
  | directory (listable : Bool) (entries : List (DirEntry TreeNode))
  | file (file : RegularFile)
  | other

namespace TreeNode

def child (self : TreeNode) (name : List UInt8) : Option TreeNode :=
  match self with
  | directory _ entries => (entries.find? fun entry => entry.name == name).map DirEntry.node
  | _ => none

/-- The node at a list of names. -/
def at? (self : TreeNode) : List (List UInt8) → Option TreeNode
  | [] => some self
  | name :: rest => (self.child name).bind fun node => node.at? rest

end TreeNode

/-- A tree whose directories have no name twice, and no name with a `/`. -/
structure DirectoryTree where
  root : TreeNode
  distinct : ∀ {names listable entries}, root.at? names = some (.directory listable entries) →
    (entries.map DirEntry.name).Nodup
  slashless : ∀ {names listable entries}, root.at? names = some (.directory listable entries) →
    ∀ entry ∈ entries, (0x2f : UInt8) ∉ entry.name

/-- `OsString::into_string`. -/
def intoString (name : List UInt8) : Option String := String.fromUTF8? name.toByteArray

/-- The names of the components of a path. -/
def RelativePath.names (self : RelativePath) : List (List UInt8) := self.components.map bytes

/-- `open_directory`; no link is followed. -/
def openDirectory (root : TreeNode) (path : RelativePath) :
    Outcome QueryFailure (Bool × List (DirEntry TreeNode)) :=
  match root.at? path.names with
  | some (.directory listable entries) => .ok (listable, entries)
  | _ => Outcome.fail .open_

/-- `open_regular_file`. -/
def openRegularFile (root : TreeNode) (path : RelativePath) : Outcome QueryFailure RegularFile := do
  Outcome.failIf (path.components = []) .open_
  match root.at? path.names with
  | some (.file file) => .ok file
  | _ => Outcome.fail .open_

/-! ## The search -/

/-- `MAX_DIRECTORY_SCAN_ENTRIES`. -/
def maxDirectoryScanEntries : ℕ := 4096

/-- `MAX_SEARCH_VISITED_ENTRIES`. -/
def maxSearchVisitedEntries : ℕ := 4096

/-- `MAX_SEARCH_FILE_BYTES`. -/
def maxSearchFileBytes : ℕ := 256 * 1024

/-- `MAX_SEARCH_TOTAL_BYTES`. -/
def maxSearchTotalBytes : ℕ := 8 * 1024 * 1024

/-- `SearchState`, with the counters of the search. -/
structure TreeSearch extends SearchState where
  visitedEntries : ℕ
  scannedBytes : ℕ
  exhausted : Bool

def TreeSearch.start : TreeSearch := ⟨⟨[], false⟩, 0, 0, false⟩

/-- The loop over the entries of a directory. -/
def readNames (path : RelativePath) :
    List (DirEntry TreeNode) → TreeSearch → List String → ℕ →
      Outcome QueryFailure (TreeSearch × List String)
  | [], state, names, _ => .ok (state, names)
  | candidate :: rest, state, names, scanned =>
    if state.visitedEntries = maxSearchVisitedEntries then
      .ok ({ state with truncated := true }, names)
    else do
      let state := { state with visitedEntries := state.visitedEntries + 1 }
      let scanned ← Outcome.okOr (usizeCheckedAdd scanned 1) .tooManyEntries
      Outcome.failIf (maxDirectoryScanEntries < scanned) .tooManyEntries
      Outcome.failIf (candidate.yielded = false) .read
      match intoString candidate.name with
      | none => readNames path rest { state with truncated := true } names scanned
      | some name =>
        match path.join name with
        | .error _ => readNames path rest { state with truncated := true } names scanned
        | .ok _ => readNames path rest state (names ++ [name]) scanned

/-- `search_regular_file`. -/
def searchRegularFile (root : TreeNode) (path : RelativePath) (query : String) (state : TreeSearch) :
    Outcome QueryFailure TreeSearch :=
  match openRegularFile root path with
  | .error _ => .ok { state with truncated := true }
  | .ok file => do
    Outcome.failIf (file.measured = false) .open_
    let length := file.content.length
    let remaining := maxSearchTotalBytes - state.scannedBytes
    if maxSearchFileBytes < length then pure { state with truncated := true }
    else if remaining = 0 ∨ remaining < length then
      pure { state with truncated := true, exhausted := true }
    else do
      let readLimit := min remaining (maxSearchFileBytes + 1)
      Outcome.failIf (file.readable = false) .read
      let body := file.content.take readLimit
      let scanned ← Outcome.okOr (usizeCheckedAdd state.scannedBytes body.length) .limit
      let state := { state with
        scannedBytes := scanned
        truncated := state.truncated || decide (scanned = maxSearchTotalBytes)
        exhausted := state.exhausted || decide (scanned = maxSearchTotalBytes) }
      if maxSearchFileBytes < body.length then pure { state with truncated := true }
      else match String.fromUTF8? body.toByteArray with
        | none => pure { state with truncated := true }
        | some content => do
          let searched ← collectMatches path content query state.toSearchState
          pure { state with toSearchState := searched }

/-- One component below a path. -/
structure RelativePath.ChildOf (child path : RelativePath) : Prop where
  length : child.components.length = path.components.length + 1
  bound : path.components.length ≤ maxRelativePathBytes

theorem join_components {path child : RelativePath} {name : String}
    (h : path.join name = .ok child) : child.components = path.components ++ [name] := by
  simp only [RelativePath.join, Outcome.bind_eq_ok, Outcome.pure_eq_ok] at h
  obtain ⟨_, _, _, _, _, _, rfl⟩ := h
  rfl

theorem childOf_join {path child : RelativePath} {name : String} (h : path.join name = .ok child) :
    child.ChildOf path := by
  have hcomponents := join_components h
  simp only [RelativePath.join, Outcome.bind_eq_ok, Outcome.exists_unit, Outcome.failIf_eq_ok] at h
  obtain ⟨-, -, hsize, -⟩ := h
  refine ⟨by rw [hcomponents, List.length_append, List.length_singleton], ?_⟩
  rw [List.length_append, List.length_singleton] at hsize
  omega

/-- `for name in names`; the second component tells whether the loop breaks. -/
def searchNames (visit : String → TreeSearch → Outcome QueryFailure (TreeSearch × Bool)) :
    List String → TreeSearch → Outcome QueryFailure TreeSearch
  | [], state => .ok state
  | name :: rest, state => do
    let (state, ended) ← visit name state
    if ended then pure state else searchNames visit rest state

/-- The body of the loop over the names of a directory. -/
def searchName (root : TreeNode) (query : String) (path : RelativePath)
    (descend : ∀ child : RelativePath, child.ChildOf path → TreeSearch →
      Outcome QueryFailure TreeSearch)
    (name : String) (state : TreeSearch) : Outcome QueryFailure (TreeSearch × Bool) :=
  if state.exhausted = true ∨ state.found.length = maxSearchMatches then
    .ok ({ state with truncated := true }, true)
  else
    match hjoin : path.join name with
    | .error _ => Outcome.fail .read
    | .ok child =>
      if name ∈ [".git", ".hg", ".svn"] then .ok ({ state with truncated := true }, false)
      else
        match openDirectory root child with
        | .ok _ => do
          let state ← descend child (childOf_join hjoin) state
          pure (state, false)
        | .error _ => do
          let state ← searchRegularFile root child query state
          pure (state, state.exhausted)

/-- `search_directory`. -/
def searchDirectory (root : TreeNode) (query : String) (path : RelativePath) (state : TreeSearch) :
    Outcome QueryFailure TreeSearch :=
  if state.exhausted = true ∨ state.found.length = maxSearchMatches ∨
      state.visitedEntries = maxSearchVisitedEntries then
    .ok { state with truncated := true }
  else do
    let (listable, entries) ← openDirectory root path
    Outcome.failIf (listable = false) .read
    let (state, names) ← readNames path entries state [] 0
    searchNames
      (searchName root query path fun child _ state => searchDirectory root query child state)
      (names.insertionSort (· ≤ ·)) state
  termination_by maxRelativePathBytes + 1 - path.components.length
  decreasing_by
    have hchild : child.ChildOf path := ‹_›
    have hlength := hchild.length
    have hbound := hchild.bound
    omega

/-! ## The output -/

/-- `Value::as_u64`. -/
def Json.asU64 : Json → Option UInt64
  | .number (.posInt n) => some n
  | _ => none

/-- A member of a match. -/
def matchMember (candidate : Json) (name : String) : Option Json :=
  candidate.asObject.bind (·.lookup name)

def searchMatchKey (candidate : Json) : Outcome QueryFailure (String ×ₗ ℕ ×ₗ ℕ) := do
  let path ← Outcome.expect ((matchMember candidate "path").bind Json.asStr)
    "constructed search path is a string"
  let line ← Outcome.expect ((matchMember candidate "line").bind Json.asU64)
    "constructed search line is an unsigned integer"
  let column ← Outcome.expect ((matchMember candidate "column").bind Json.asU64)
    "constructed search column is an unsigned integer"
  pure (toLex (path, toLex (line.toNat, column.toNat)))

/-- `state.matches.sort_by(..)`; the keys are read first. -/
def sortMatches (found : List Json) : Outcome QueryFailure (List Json) := do
  let keyed ← found.mapM fun candidate => do
    let key ← searchMatchKey candidate
    pure (key, candidate)
  pure ((keyed.insertionSort fun left right => left.1 ≤ right.1).map Prod.snd)

/-- `search_text`. -/
def searchText (E : CanonicalEncoder) (root : TreeNode) (path : RelativePath) (query : String) :
    Outcome QueryFailure ObservedOutput := do
  let _ ← openDirectory root path
  let state ← searchDirectory root query path .start
  let found ← sortMatches state.found
  boundedCollectionOutput E "matches" found state.truncated

end Xgeny
