import Xgeny.Filesystem.SearchOccurrences

set_option autoImplicit false

/-!
# What a search of a tree returns

A search reports leftmost occurrences of the query in regular files below its start, sorted by path, line
and column. When it did not set its flag it reports all of them.

* `HitIn`, `Whole`: the matches below a path, and that every file there can be searched;
* `Finds`: what a part of the search adds to its state; `Finds.append`, `Finds.raise`: parts of it;
* `searchRegularFile_finds`, `readNames_read`, `searchNames_finds`, **`searchDirectory_finds`**: the
  functions of the search;
* **`search_text_laws`**: the output.
-/

namespace Xgeny

/-! ## The tree -/

section Tree

variable {root : TreeNode} {path child : RelativePath} {name : String}

theorem TreeNode.at?_append (self : TreeNode) (a b : List (List UInt8)) :
    self.at? (a ++ b) = (self.at? a).bind fun node => node.at? b := by
  induction a generalizing self with
  | nil => rfl
  | cons name rest ih =>
    rw [List.cons_append, TreeNode.at?, TreeNode.at?, Option.bind_assoc]
    exact Option.bind_congr fun node _ => ih node

theorem openDirectory_eq_ok {listing : Bool × List (DirEntry TreeNode)} :
    openDirectory root path = .ok listing ↔
      root.at? path.names = some (.directory listing.1 listing.2) := by
  unfold openDirectory
  split
  · rename_i listable entries hat
    rw [hat, Except.ok.injEq, Option.some.injEq, TreeNode.directory.injEq, Prod.ext_iff]
  · rename_i hnot
    exact iff_of_false Outcome.fail_eq_ok (hnot _ _)

theorem openRegularFile_eq_ok {file : RegularFile} : openRegularFile root path = .ok file ↔
    path.components ≠ [] ∧ root.at? path.names = some (.file file) := by
  unfold openRegularFile
  simp only [Outcome.bind_eq_ok, Outcome.exists_unit, Outcome.failIf_eq_ok]
  refine and_congr_right fun _ => ?_
  split
  · rename_i opened hat
    rw [hat, Except.ok.injEq, Option.some.injEq, TreeNode.file.injEq]
  · rename_i hnot
    exact iff_of_false Outcome.fail_eq_ok (hnot _)

theorem intoString_eq_some {raw : List UInt8} : intoString raw = some name ↔ bytes name = raw :=
  fromUTF8_eq_some

end Tree

/-! ## Matches below a path -/

/-- A match in a file at or below a path. -/
def HitIn (root : TreeNode) (query : String) (path : RelativePath)
    (found : RelativePath × SearchHit) : Prop :=
  path.components <+: found.1.components ∧ ∃ file content,
    root.at? found.1.names = some (.file file) ∧ bytes content = file.content ∧
      found.2 ∈ searchHits content query

/-- Every file at or below a path is a text, and has a path. -/
def Whole (root : TreeNode) (path : RelativePath) : Prop :=
  ∀ names file, root.at? (path.names ++ names) = some (.file file) →
    ∃ below : RelativePath, path.components <+: below.components ∧
      below.names = path.names ++ names ∧ ∃ content, bytes content = file.content

/-- What holds of a match that is reported. -/
structure Reported (root : TreeNode) (query : String) (path : RelativePath)
    (found : RelativePath × SearchHit) : Prop where
  hit : HitIn root query path found
  isPath : IsPath found.1.components
  written : found.2.Written

/-- The limits of a search. -/
structure TreeSearch.Within (state : TreeSearch) : Prop where
  found : state.found.length ≤ maxSearchMatches
  visited : state.visitedEntries ≤ maxSearchVisitedEntries
  scanned : state.scannedBytes ≤ maxSearchTotalBytes
  exhausted : state.exhausted = true → state.truncated = true

/-- What the search of some paths adds to its state. -/
structure Finds (root : TreeNode) (query : String) (paths : List RelativePath)
    (state state' : TreeSearch) (new : List (RelativePath × SearchHit)) : Prop where
  found : state'.found = state.found ++ new.map fun entry => matchOf entry.1 query entry.2
  sound : ∀ entry ∈ new, ∃ path ∈ paths, Reported root query path entry
  nodup : new.Nodup
  complete : state'.truncated = false → state.truncated = false ∧
    ∀ path ∈ paths, Whole root path ∧ ∀ entry, HitIn root query path entry → entry ∈ new

namespace Finds

variable {root : TreeNode} {query : String} {paths paths' : List RelativePath}
  {state state₁ state' : TreeSearch} {new new' : List (RelativePath × SearchHit)}

theorem skip (hfound : state'.found = state.found) (htruncated : state'.truncated = true) :
    Finds root query paths state state' [] where
  found := by rw [hfound, List.map_nil, List.append_nil]
  sound := by simp
  nodup := .nil
  complete := by simp [htruncated]

theorem none (hfound : state'.found = state.found)
    (htruncated : state'.truncated = false → state.truncated = false) :
    Finds root query [] state state' [] where
  found := by rw [hfound, List.map_nil, List.append_nil]
  sound := by simp
  nodup := .nil
  complete h := ⟨htruncated h, by simp⟩

/-- **One part after another**, when nothing is below both of them. -/
theorem append (h : Finds root query paths state state₁ new)
    (h' : Finds root query paths' state₁ state' new')
    (happart : ∀ path ∈ paths, ∀ path' ∈ paths', ∀ below : List String,
      path.components <+: below → ¬ path'.components <+: below) :
    Finds root query (paths ++ paths') state state' (new ++ new') where
  found := by rw [h'.found, h.found, List.map_append, List.append_assoc]
  sound := by
    intro entry hentry
    rcases List.mem_append.mp hentry with hentry | hentry
    · obtain ⟨path, hpath, hreported⟩ := h.sound entry hentry
      exact ⟨path, List.mem_append_left _ hpath, hreported⟩
    · obtain ⟨path, hpath, hreported⟩ := h'.sound entry hentry
      exact ⟨path, List.mem_append_right _ hpath, hreported⟩
  nodup := by
    refine List.nodup_append.mpr ⟨h.nodup, h'.nodup, ?_⟩
    rintro entry hentry _ hentry' rfl
    obtain ⟨path, hpath, hreported⟩ := h.sound entry hentry
    obtain ⟨path', hpath', hreported'⟩ := h'.sound entry hentry'
    exact happart path hpath path' hpath' _ hreported.hit.1 hreported'.hit.1
  complete := by
    intro hwhole
    obtain ⟨hbetween, hall'⟩ := h'.complete hwhole
    obtain ⟨hbefore, hall⟩ := h.complete hbetween
    refine ⟨hbefore, fun path hpath => ?_⟩
    rcases List.mem_append.mp hpath with hpath | hpath
    · obtain ⟨hfiles, hhits⟩ := hall path hpath
      exact ⟨hfiles, fun entry hhit => List.mem_append_left _ (hhits entry hhit)⟩
    · obtain ⟨hfiles, hhits⟩ := hall' path hpath
      exact ⟨hfiles, fun entry hhit => List.mem_append_right _ (hhits entry hhit)⟩

theorem break_ (h : Finds root query paths state state' new) (htruncated : state'.truncated = true) :
    Finds root query (paths ++ paths') state state' new where
  found := h.found
  sound := by
    intro entry hentry
    obtain ⟨path, hpath, hreported⟩ := h.sound entry hentry
    exact ⟨path, List.mem_append_left _ hpath, hreported⟩
  nodup := h.nodup
  complete := by simp [htruncated]

/-- **From the children to a directory.** Everything below it is below one of them, when nothing is
left out. -/
theorem raise {path : RelativePath} (h : Finds root query paths state state' new)
    (hbelow : ∀ child ∈ paths, path.components <+: child.components)
    (hfiles : state'.truncated = false → ∀ names file,
      root.at? (path.names ++ names) = some (.file file) →
        ∃ child ∈ paths, ∃ rest, path.names ++ names = child.names ++ rest) :
    Finds root query [path] state state' new where
  found := h.found
  sound := by
    intro entry hentry
    obtain ⟨child, hchild, hreported⟩ := h.sound entry hentry
    exact ⟨path, List.mem_singleton_self path,
      ⟨(hbelow child hchild).trans hreported.hit.1, hreported.hit.2⟩, hreported.isPath,
      hreported.written⟩
  nodup := h.nodup
  complete := by
    intro hwhole
    obtain ⟨hbefore, hall⟩ := h.complete hwhole
    refine ⟨hbefore, fun only honly => ?_⟩
    rw [List.mem_singleton.mp honly]
    constructor
    · intro names file hat
      obtain ⟨child, hchild, rest, hrest⟩ := hfiles hwhole names file hat
      rw [hrest] at hat
      obtain ⟨below, hunder, hnames, hcontent⟩ := (hall child hchild).1 rest file hat
      exact ⟨below, (hbelow child hchild).trans hunder, hnames.trans hrest.symm, hcontent⟩
    · rintro entry ⟨⟨names, hnames⟩, file, content, hat, hcontent, hhit⟩
      have hentry : entry.1.names = path.names ++ names.map bytes := by
        rw [RelativePath.names, ← hnames, List.map_append]
        rfl
      rw [hentry] at hat
      obtain ⟨child, hchild, rest, hrest⟩ := hfiles hwhole _ file hat
      have hunder : child.components <+: entry.1.components :=
        (List.prefix_map_iff_of_injective fun _ _ h => bytes_injective h).mp
          ⟨rest, (hentry.trans hrest).symm⟩
      rw [← hentry] at hat
      exact (hall child hchild).2 entry ⟨hunder, file, content, hat, hcontent, hhit⟩

end Finds

/-! ## Files -/

section Files

variable {root : TreeNode} {query : String} {path : RelativePath} {state state' : TreeSearch}

theorem at?_of_file {file : RegularFile} (h : root.at? path.names = some (.file file))
    {names : List (List UInt8)} {node : TreeNode} (hat : root.at? (path.names ++ names) = some node) :
    names = [] ∧ node = .file file := by
  rw [TreeNode.at?_append, h, Option.bind_some] at hat
  cases names with
  | nil => exact ⟨rfl, (Option.some.inj hat).symm⟩
  | cons name rest => cases hat

theorem hitIn_file {file : RegularFile} {content : String}
    (h : root.at? path.names = some (.file file)) (hcontent : bytes content = file.content)
    {entry : RelativePath × SearchHit} :
    HitIn root query path entry ↔ ∃ hit ∈ searchHits content query, entry = (path, hit) := by
  constructor
  · rintro ⟨⟨components, hcomponents⟩, file', content', hat, hcontent', hhit⟩
    have hnames : entry.1.names = path.names ++ components.map bytes := by
      rw [RelativePath.names, ← hcomponents, List.map_append]
      rfl
    rw [hnames] at hat
    obtain ⟨hnil, hfile⟩ := at?_of_file h hat
    rw [List.map_eq_nil_iff.mp hnil, List.append_nil] at hcomponents
    rw [TreeNode.file.inj hfile, ← hcontent] at hcontent'
    rw [bytes_injective hcontent'] at hhit
    exact ⟨entry.2, hhit, Prod.ext (congrArg RelativePath.mk hcomponents.symm) rfl⟩
  · rintro ⟨hit, hhit, rfl⟩
    exact ⟨List.prefix_rfl, file, content, h, hcontent, hhit⟩

theorem collectMatches_finds {file : RegularFile} {content : String} {searched : SearchState}
    (hat : root.at? path.names = some (.file file)) (hcontent : bytes content = file.content)
    (hpath : IsPath path.components) (hquery : query ≠ "")
    (hbytes : byteLen query ≤ maxSearchQueryBytes)
    (hsize : file.content.length ≤ maxSearchFileBytes)
    (hfound : state.found.length ≤ maxSearchMatches)
    (h : collectMatches path content query state.toSearchState = .ok searched)
    (hstate : state'.toSearchState = searched) :
    state'.found.length ≤ maxSearchMatches ∧ (state.truncated = true → state'.truncated = true) ∧
      ∃ new, Finds root query [path] state state' new := by
  rw [collectMatches_eq hbytes hfound, Except.ok.injEq] at h
  have hnewFound := congrArg SearchState.found (hstate.trans h.symm)
  have hflag := congrArg SearchState.truncated (hstate.trans h.symm)
  dsimp only at hnewFound hflag
  have hcontentSize : byteLen content ≤ maxSearchFileBytes := by
    rw [byteLen_eq_length, hcontent]
    exact hsize
  refine ⟨?_, fun htruncated => by rw [hflag, htruncated, Bool.true_or],
    ((searchHits content query).take (maxSearchMatches - state.found.length)).map fun hit =>
      (path, hit), ?_, ?_, ?_, ?_⟩
  · rw [hnewFound, List.length_append, List.length_map, List.length_take]
    omega
  · rw [hnewFound, List.map_map]
    rfl
  · intro entry hentry
    obtain ⟨hit, hhit, rfl⟩ := List.mem_map.mp hentry
    have hmem := List.mem_of_mem_take hhit
    exact ⟨path, List.mem_singleton_self path, (hitIn_file hat hcontent).mpr ⟨hit, hmem, rfl⟩, hpath,
      written_of_mem hquery hcontentSize hmem⟩
  · exact ((nodup_searchHits hquery).sublist (List.take_sublist _ _)).map
      fun a b hsame => (Prod.ext_iff.mp hsame).2
  · intro hwhole
    rw [hflag, Bool.or_eq_false_iff, decide_eq_false_iff_not, Nat.not_lt] at hwhole
    refine ⟨hwhole.1, fun only honly => ?_⟩
    rw [List.mem_singleton.mp honly]
    constructor
    · intro names file' hbelow
      obtain ⟨rfl, hfile⟩ := at?_of_file hat hbelow
      exact ⟨path, List.prefix_rfl, (List.append_nil _).symm, content,
        hcontent.trans (by rw [TreeNode.file.inj hfile])⟩
    · intro entry hentry
      obtain ⟨hit, hhit, rfl⟩ := (hitIn_file hat hcontent).mp hentry
      rw [List.take_of_length_le (by omega)]
      exact List.mem_map_of_mem hhit

/-- **Searching a file.** -/
theorem searchRegularFile_finds (hpath : IsPath path.components) (hquery : query ≠ "")
    (hbytes : byteLen query ≤ maxSearchQueryBytes) (hwithin : state.Within)
    (h : searchRegularFile root path query state = .ok state') :
    state'.Within ∧ ∃ new, Finds root query [path] state state' new := by
  unfold searchRegularFile at h
  split at h
  · obtain rfl := Except.ok.inj h
    exact ⟨⟨hwithin.found, hwithin.visited, hwithin.scanned, fun _ => rfl⟩, [], .skip rfl rfl⟩
  · rename_i file hopen
    have hat := (openRegularFile_eq_ok.mp hopen).2
    simp only [Outcome.bind_eq_ok, Outcome.exists_unit] at h
    obtain ⟨-, h⟩ := h
    split at h
    · obtain rfl := Outcome.pure_eq_ok.mp h
      exact ⟨⟨hwithin.found, hwithin.visited, hwithin.scanned, fun _ => rfl⟩, [], .skip rfl rfl⟩
    · rename_i hsize
      split at h
      · obtain rfl := Outcome.pure_eq_ok.mp h
        exact ⟨⟨hwithin.found, hwithin.visited, hwithin.scanned, fun _ => rfl⟩, [], .skip rfl rfl⟩
      · rename_i hroom
        rw [not_or, Nat.not_lt] at hroom
        rw [Nat.not_lt] at hsize
        -- the whole file is read
        have hbody : file.content.take
            (min (maxSearchTotalBytes - state.scannedBytes) (maxSearchFileBytes + 1)) =
              file.content := List.take_of_length_le (by omega)
        simp only [Outcome.bind_eq_ok, Outcome.exists_unit, hbody, Outcome.okOr_eq_ok,
          usizeCheckedAdd_eq_some, if_neg (Nat.not_lt.mpr hsize)] at h
        obtain ⟨-, scanned, ⟨rfl, -⟩, h⟩ := h
        have hscanned : state.scannedBytes + file.content.length ≤ maxSearchTotalBytes := by omega
        split at h
        · obtain rfl := Outcome.pure_eq_ok.mp h
          exact ⟨⟨hwithin.found, hwithin.visited, hscanned, fun _ => rfl⟩, [], .skip rfl rfl⟩
        · rename_i content hcontent
          obtain ⟨searched, hsearched, h⟩ := Outcome.bind_eq_ok.mp h
          obtain rfl := Outcome.pure_eq_ok.mp h
          -- the counters and the flags first, and then the matches
          set read : TreeSearch := { state with
            scannedBytes := state.scannedBytes + file.content.length
            truncated := state.truncated ||
              decide (state.scannedBytes + file.content.length = maxSearchTotalBytes)
            exhausted := state.exhausted ||
              decide (state.scannedBytes + file.content.length = maxSearchTotalBytes) } with hread
          have hflags : Finds root query [] state read [] :=
            .none rfl fun hclean => (Bool.or_eq_false_iff.mp hclean).1
          obtain ⟨hfound, hkeeps, new, hfinds⟩ := @collectMatches_finds root query path read
            { read with toSearchState := searched } file content searched hat
            (fromUTF8_eq_some.mp hcontent) hpath hquery hbytes hsize hwithin.found hsearched rfl
          refine ⟨⟨hfound, hwithin.visited, hscanned, fun hexhausted => hkeeps ?_⟩, _,
            hflags.append hfinds (by simp)⟩
          rcases Bool.or_eq_true_iff.mp hexhausted with hbefore | hfull
          · exact Bool.or_eq_true_iff.mpr (Or.inl (hwithin.exhausted hbefore))
          · exact Bool.or_eq_true_iff.mpr (Or.inr hfull)

end Files

/-! ## Directories -/

section Directories

variable {root : TreeNode} {query : String} {path : RelativePath} {state state' : TreeSearch}

/-- What the loop over the entries of a directory leaves; without the flag, every name is there. -/
structure NamesRead (path : RelativePath) (entries : List (DirEntry TreeNode))
    (state state' : TreeSearch) (names : List String) : Prop where
  found : state'.found = state.found
  within : state.Within → state'.Within
  listed : (names.map bytes).Sublist (entries.map DirEntry.name)
  joined : ∀ name ∈ names, ∃ child, path.join name = .ok child
  complete : state'.truncated = false →
    state.truncated = false ∧ names.map bytes = entries.map DirEntry.name

theorem readNames_read {entries : List (DirEntry TreeNode)} {before names : List String}
    {scanned : ℕ} (h : readNames path entries state before scanned = .ok (state', names)) :
    ∃ new, names = before ++ new ∧ NamesRead path entries state state' new := by
  induction entries generalizing state before scanned with
  | nil =>
    obtain ⟨rfl, rfl⟩ := Prod.mk.inj (Except.ok.inj h)
    exact ⟨[], (List.append_nil _).symm, rfl, id, .slnil, by simp, fun hclean => ⟨hclean, rfl⟩⟩
  | cons candidate rest ih =>
    rw [readNames] at h
    split at h
    · obtain ⟨rfl, rfl⟩ := Prod.mk.inj (Except.ok.inj h)
      exact ⟨[], (List.append_nil _).symm, rfl,
        fun hwithin => ⟨hwithin.found, hwithin.visited, hwithin.scanned, fun _ => rfl⟩,
        List.nil_sublist _, by simp, by simp⟩
    · rename_i hroom
      simp only [Outcome.bind_eq_ok, Outcome.exists_unit] at h
      obtain ⟨scanned', -, -, -, h⟩ := h
      have hvisited : state.Within → state.visitedEntries + 1 ≤ maxSearchVisitedEntries :=
        fun hwithin => Nat.lt_of_le_of_ne hwithin.visited hroom
      -- an entry that is left out sets the flag
      have hleftOut : readNames path rest { state with
            truncated := true, visitedEntries := state.visitedEntries + 1 } before scanned' =
              .ok (state', names) →
          ∃ new, names = before ++ new ∧ NamesRead path (candidate :: rest) state state' new := by
        intro hrest
        obtain ⟨new, hnew, hread⟩ := ih hrest
        refine ⟨new, hnew, hread.found, fun hwithin => hread.within ⟨hwithin.found, hvisited hwithin,
          hwithin.scanned, fun _ => rfl⟩, hread.listed.cons _, hread.joined, fun hclean => ?_⟩
        exact absurd (hread.complete hclean).1 (by simp)
      split at h
      · exact hleftOut h
      · rename_i name hname
        split at h
        · exact hleftOut h
        · rename_i child hjoin
          obtain ⟨new, hnew, hread⟩ := ih h
          have hbytes := intoString_eq_some.mp hname
          refine ⟨name :: new, by rw [hnew, List.append_assoc, List.singleton_append], hread.found,
            fun hwithin => hread.within ⟨hwithin.found, hvisited hwithin, hwithin.scanned,
              hwithin.exhausted⟩, ?_, ?_, fun hclean => ?_⟩
          · rw [List.map_cons, List.map_cons, hbytes]
            exact hread.listed.cons_cons _
          · exact List.forall_mem_cons.mpr ⟨⟨child, hjoin⟩, hread.joined⟩
          · obtain ⟨hbefore, hall⟩ := hread.complete hclean
            exact ⟨hbefore, by rw [List.map_cons, List.map_cons, hbytes, hall]⟩

/-- The path of a child. -/
def childPath (path : RelativePath) (name : String) : RelativePath := ⟨path.components ++ [name]⟩

theorem join_eq_childPath {name : String} {child : RelativePath} (h : path.join name = .ok child) :
    child = childPath path name := congrArg RelativePath.mk (join_components h)

/-- **The loop over the names** searches one child after another. -/
theorem searchNames_finds {visit : String → TreeSearch → Outcome QueryFailure (TreeSearch × Bool)}
    {names : List String} (hnames : names.Nodup)
    (hvisit : ∀ name ∈ names, ∀ {before after ended}, before.Within →
      visit name before = .ok (after, ended) → after.Within ∧ (ended = true → after.truncated = true) ∧
        ∃ new, Finds root query [childPath path name] before after new)
    (hwithin : state.Within) (h : searchNames visit names state = .ok state') :
    state'.Within ∧ ∃ new, Finds root query (names.map (childPath path)) state state' new := by
  induction names generalizing state with
  | nil =>
    obtain rfl := Except.ok.inj h
    exact ⟨hwithin, [], .none rfl id⟩
  | cons name rest ih =>
    rw [searchNames] at h
    obtain ⟨⟨between, ended⟩, hfirst, h⟩ := Outcome.bind_eq_ok.mp h
    dsimp only at h
    obtain ⟨hnew, hrest⟩ := List.nodup_cons.mp hnames
    obtain ⟨hbetween, hended, new, hfinds⟩ := hvisit name List.mem_cons_self hwithin hfirst
    rw [List.map_cons, ← List.singleton_append]
    split at h
    · rename_i hbreak
      obtain rfl := Outcome.pure_eq_ok.mp h
      exact ⟨hbetween, new, hfinds.break_ (hended hbreak)⟩
    · obtain ⟨hafter, new', hfinds'⟩ :=
        ih hrest (fun other hother => hvisit other (List.mem_cons_of_mem _ hother)) hbetween h
      refine ⟨hafter, new ++ new', hfinds.append hfinds' ?_⟩
      -- two names are not continued by one path
      intro first hfirst second hsecond below hbelow hbelow'
      obtain ⟨other, hother, rfl⟩ := List.mem_map.mp hsecond
      rw [List.mem_singleton.mp hfirst] at hbelow
      have hlength : (path.components ++ [name]).length = (path.components ++ [other]).length := by
        rw [List.length_append, List.length_append]
        rfl
      have hsame := List.append_cancel_left
        ((List.prefix_of_prefix_length_le hbelow hbelow' hlength.le).eq_of_length hlength)
      exact hnew ((List.cons.inj hsame).1 ▸ hother)

theorem isPath_childPath {tree : DirectoryTree} {path : RelativePath}
    {listing : Bool × List (DirEntry TreeNode)} {name : String} (hpath : IsPath path.components)
    (hlisting : openDirectory tree.root path = .ok listing)
    (hname : bytes name ∈ listing.2.map DirEntry.name) {child : RelativePath}
    (hjoin : path.join name = .ok child) : IsPath (childPath path name).components := by
  obtain ⟨entry, hentry, hbytes⟩ := List.mem_map.mp hname
  have hslash : '/' ∉ name.toList := by
    intro hslash
    have hbyte : (0x2f : UInt8) ∈ bytes name := bytes_toList_subset hslash _ (by decide)
    exact tree.slashless (openDirectory_eq_ok.mp hlisting) entry hentry (hbytes ▸ hbyte)
  exact ((join_iff hpath hslash).mp hjoin).1

theorem name_of_file {listing : Bool × List (DirEntry TreeNode)} {below : List (List UInt8)}
    {file : RegularFile} (hat : root.at? path.names = some (.directory listing.1 listing.2))
    (h : root.at? (path.names ++ below) = some (.file file)) :
    ∃ name ∈ listing.2.map DirEntry.name, ∃ rest, below = name :: rest := by
  rw [TreeNode.at?_append, hat, Option.bind_some] at h
  cases below with
  | nil => cases h
  | cons name rest =>
    obtain ⟨node, hchild, -⟩ := Option.bind_eq_some_iff.mp h
    obtain ⟨entry, hentry, -⟩ := Option.map_eq_some_iff.mp hchild
    refine ⟨name, List.mem_map.mpr ⟨entry, List.mem_of_find?_eq_some hentry, ?_⟩, rest, rfl⟩
    have hname := List.find?_some hentry
    exact beq_iff_eq.mp hname

theorem searchName_finds {descend : ∀ child : RelativePath, child.ChildOf path → TreeSearch →
      Outcome QueryFailure TreeSearch} {name : String} {ended : Bool}
    (hpath : ∀ child, path.join name = .ok child → IsPath (childPath path name).components)
    (hquery : query ≠ "") (hbytes : byteLen query ≤ maxSearchQueryBytes)
    (hdescend : ∀ {hchild before after}, before.Within →
      descend (childPath path name) hchild before = .ok after →
        IsPath (childPath path name).components → after.Within ∧
          ∃ new, Finds root query [childPath path name] before after new)
    (hwithin : state.Within)
    (h : searchName root query path descend name state = .ok (state', ended)) :
    state'.Within ∧ (ended = true → state'.truncated = true) ∧
      ∃ new, Finds root query [childPath path name] state state' new := by
  have hflag : ({ state with truncated := true } : TreeSearch).Within :=
    ⟨hwithin.found, hwithin.visited, hwithin.scanned, fun _ => rfl⟩
  unfold searchName at h
  split at h
  · obtain ⟨rfl, rfl⟩ := Prod.mk.inj (Except.ok.inj h)
    exact ⟨hflag, fun _ => rfl, [], .skip rfl rfl⟩
  · split at h
    · exact absurd h Outcome.fail_eq_ok
    · rename_i child hjoin
      obtain rfl := join_eq_childPath hjoin
      split at h
      · obtain ⟨rfl, rfl⟩ := Prod.mk.inj (Except.ok.inj h)
        exact ⟨hflag, fun _ => rfl, [], .skip rfl rfl⟩
      · split at h
        · obtain ⟨after, hafter, h⟩ := Outcome.bind_eq_ok.mp h
          obtain ⟨rfl, rfl⟩ := Prod.mk.inj (Outcome.pure_eq_ok.mp h)
          obtain ⟨hbetween, hfinds⟩ := hdescend hwithin hafter (hpath _ hjoin)
          exact ⟨hbetween, by simp, hfinds⟩
        · obtain ⟨after, hafter, h⟩ := Outcome.bind_eq_ok.mp h
          obtain ⟨rfl, rfl⟩ := Prod.mk.inj (Outcome.pure_eq_ok.mp h)
          obtain ⟨hbetween, hfinds⟩ :=
            searchRegularFile_finds (hpath _ hjoin) hquery hbytes hwithin hafter
          exact ⟨hbetween, hbetween.exhausted, hfinds⟩

/-- **Searching a directory.** By induction on the length that is left for its path. -/
theorem searchDirectory_finds (tree : DirectoryTree) (hquery : query ≠ "")
    (hbytes : byteLen query ≤ maxSearchQueryBytes) (hpath : IsPath path.components)
    (hwithin : state.Within) (h : searchDirectory tree.root query path state = .ok state') :
    state'.Within ∧ ∃ new, Finds tree.root query [path] state state' new := by
  obtain ⟨left, hleft⟩ : ∃ left, left = maxRelativePathBytes + 1 - path.components.length := ⟨_, rfl⟩
  induction left using Nat.strong_induction_on generalizing path state state' with
  | h left ih =>
    rw [searchDirectory] at h
    split at h
    · obtain rfl := Except.ok.inj h
      exact ⟨⟨hwithin.found, hwithin.visited, hwithin.scanned, fun _ => rfl⟩, [], .skip rfl rfl⟩
    · obtain ⟨⟨listable, entries⟩, hlisting, h⟩ := Outcome.bind_eq_ok.mp h
      simp only [Outcome.bind_eq_ok, Outcome.exists_unit, Prod.exists] at h
      obtain ⟨-, read, names, hread, h⟩ := h
      obtain ⟨new, hnew, hnames⟩ := readNames_read hread
      rw [List.nil_append] at hnew
      subst hnew
      have hat := openDirectory_eq_ok.mp hlisting
      have hmem : ∀ {name}, name ∈ names.insertionSort (· ≤ ·) ↔ name ∈ names :=
        fun {name} => List.mem_insertionSort _
      have hdistinct : (names.insertionSort (· ≤ ·)).Nodup :=
        (List.perm_insertionSort _ names).nodup_iff.mpr
          (List.Nodup.of_map bytes (hnames.listed.nodup (tree.distinct hat)))
      obtain ⟨hafter, found, hfinds⟩ := searchNames_finds hdistinct (fun name hname => by
        intro before after ended hbefore hvisit
        have hlisted := hnames.listed.subset (List.mem_map_of_mem (hmem.mp hname))
        refine searchName_finds (fun child hjoin => isPath_childPath hpath hlisting hlisted hjoin)
          hquery hbytes ?_ hbefore hvisit
        intro hchild before after hbefore hdirectory hchildPath
        have hlength := hchild.length
        have hbound := hchild.bound
        exact ih _ (by omega) hchildPath hbefore hdirectory rfl) (hnames.within hwithin) h
      refine ⟨hafter, [] ++ found, Finds.append (Finds.none hnames.found fun hclean =>
        (hnames.complete hclean).1) (hfinds.raise ?_ ?_) (by simp)⟩
      · intro child hchild
        obtain ⟨name, -, rfl⟩ := List.mem_map.mp hchild
        exact List.prefix_append _ _
      · intro hclean below file hfile
        obtain ⟨name, hname, rest, rfl⟩ := name_of_file hat hfile
        rw [← (hnames.complete (hfinds.complete hclean).1).2] at hname
        obtain ⟨text, htext, rfl⟩ := List.mem_map.mp hname
        refine ⟨childPath path text, List.mem_map_of_mem (hmem.mpr htext), rest, ?_⟩
        rw [RelativePath.names, RelativePath.names, childPath, List.map_append, List.append_assoc]
        rfl

end Directories

/-! ## The output -/

/-- A match in the output. -/
structure FoundMatch where
  file : RelativePath
  line : ℕ
  column : ℕ
  preview : String

namespace FoundMatch

def json (self : FoundMatch) : Json := matchJson self.file self.line self.column self.preview

/-- What matches are sorted by. -/
def key (self : FoundMatch) : String ×ₗ ℕ ×ₗ ℕ :=
  toLex (self.file.display, toLex (self.line, self.column))

/-- A match that was found, as it is written down. -/
def ofHit (query : String) (entry : RelativePath × SearchHit) : FoundMatch where
  file := entry.1
  line := entry.2.lineIndex + 1
  column := entry.2.column
  preview := entry.2.preview query

end FoundMatch

/-- One of the leftmost occurrences of the query in a line of a file below the start; lines and columns
count from one. -/
def OccurrenceIn (root : TreeNode) (start : RelativePath) (query : String) (file : RelativePath)
    (line column : ℕ) : Prop :=
  start.components <+: file.components ∧ ∃ regular content index text offset offsets,
    root.at? file.names = some (.file regular) ∧ bytes content = regular.content ∧
      (searchLines content)[index]? = some text ∧
      Leftmost query.toList text.toList 0 offsets ∧ offset ∈ offsets ∧
      line = index + 1 ∧ column = offset + 1

section Output

variable {root : TreeNode} {query : String} {start : RelativePath}

theorem occurrenceIn_iff (hquery : query ≠ "") {file : RelativePath} {line column : ℕ} :
    OccurrenceIn root start query file line column ↔ ∃ hit, HitIn root query start (file, hit) ∧
      line = hit.lineIndex + 1 ∧ column = hit.column := by
  have hne : query.toList ≠ [] := mt String.toList_eq_nil_iff.mp hquery
  constructor
  · rintro ⟨hbelow, regular, content, index, text, offset, offsets, hat, hcontent, htext, hoffsets,
      hoffset, rfl, rfl⟩
    refine ⟨hitAt index text offset, ⟨hbelow, regular, content, hat, hcontent,
      (mem_searchHits_iff hquery).mpr ⟨index, text, offset, offsets, htext, hoffsets, hoffset, rfl⟩⟩,
      rfl, ?_⟩
    rw [column_hitAt ((hoffsets.occursAt hoffset).lt_length hne).le]
  · rintro ⟨hit, ⟨hbelow, regular, content, hat, hcontent, hhit⟩, rfl, rfl⟩
    obtain ⟨index, text, offset, offsets, htext, hoffsets, hoffset, rfl⟩ :=
      (mem_searchHits_iff hquery).mp hhit
    exact ⟨hbelow, regular, content, index, text, offset, offsets, hat, hcontent, htext, hoffsets,
      hoffset, rfl, column_hitAt ((hoffsets.occursAt hoffset).lt_length hne).le⟩

theorem display_injective {a b : RelativePath} (ha : IsPath a.components) (hb : IsPath b.components)
    (h : a.display = b.display) : a = b := by
  obtain ⟨components⟩ := a
  obtain ⟨components'⟩ := b
  by_cases hnil : components = []
  · by_cases hnil' : components' = []
    · rw [hnil, hnil']
    · rw [hnil, display_nil, display_of_ne_nil hnil'] at h
      exact absurd h.symm (hb.ne_dot hnil')
  · by_cases hnil' : components' = []
    · rw [hnil', display_nil, display_of_ne_nil hnil] at h
      exact absurd h (ha.ne_dot hnil)
    · rw [display_of_ne_nil hnil, display_of_ne_nil hnil'] at h
      exact congrArg RelativePath.mk (ha.joined_injective hb hnil h)

/-- **Two matches have different keys.** -/
theorem Reported.eq_of_key (hquery : query ≠ "") {a b : RelativePath × SearchHit}
    (ha : Reported root query start a) (hb : Reported root query start b)
    (h : (FoundMatch.ofHit query a).key = (FoundMatch.ofHit query b).key) : a = b := by
  obtain ⟨file, hit⟩ := a
  obtain ⟨file', hit'⟩ := b
  obtain ⟨hdisplay, hplace⟩ := Prod.mk.inj (toLex_inj.mp h)
  obtain ⟨hline, hcolumn⟩ := Prod.mk.inj (toLex_inj.mp hplace)
  obtain rfl : file = file' := display_injective ha.isPath hb.isPath hdisplay
  obtain ⟨-, regular, content, hat, hcontent, hhit⟩ := ha.hit
  obtain ⟨-, regular', content', hat', hcontent', hhit'⟩ := hb.hit
  obtain rfl : regular = regular' := TreeNode.file.inj (Option.some.inj (hat.symm.trans hat'))
  obtain rfl : content = content' := bytes_injective (hcontent.trans hcontent'.symm)
  exact Prod.ext rfl (hits_of_places hquery hhit hhit' (Nat.succ.inj hline) hcolumn)

/-- The order of the output. -/
def keyLe (query : String) (a b : RelativePath × SearchHit) : Prop :=
  (FoundMatch.ofHit query a).key ≤ (FoundMatch.ofHit query b).key

instance decidableKeyLe : DecidableRel (keyLe query) := fun a b =>
  inferInstanceAs (Decidable ((FoundMatch.ofHit query a).key ≤ (FoundMatch.ofHit query b).key))

/-- **The matches are sorted by their keys.** -/
theorem sortMatches_eq {new : List (RelativePath × SearchHit)}
    (hnew : ∀ entry ∈ new, Reported root query start entry) :
    sortMatches (new.map fun entry => matchOf entry.1 query entry.2) =
      .ok ((new.insertionSort (keyLe query)).map fun entry => matchOf entry.1 query entry.2) := by
  have hkeyed : (new.map fun entry => matchOf entry.1 query entry.2).mapM
      (fun candidate => do
        let key ← searchMatchKey candidate
        pure (key, candidate)) =
      .ok (new.map fun entry =>
        ((FoundMatch.ofHit query entry).key, matchOf entry.1 query entry.2)) := by
    rw [Outcome.mapM_eq_ok, List.forall₂_map_left_iff, List.forall₂_map_right_iff]
    refine List.forall₂_same.mpr fun entry hentry => ?_
    rw [searchMatchKey_matchOf (hnew entry hentry).written]
    rfl
  have hsort := List.map_insertionSort (r := keyLe query)
    (s := fun left right : (String ×ₗ ℕ ×ₗ ℕ) × Json => left.1 ≤ right.1)
    (fun entry => ((FoundMatch.ofHit query entry).key, matchOf entry.1 query entry.2)) new
    fun a _ b _ => Iff.rfl
  rw [sortMatches, hkeyed]
  change Except.ok _ = _
  rw [← hsort, List.map_map]
  rfl

/-- **The output is strictly sorted.** -/
theorem sorted_strictly (hquery : query ≠ "") {new : List (RelativePath × SearchHit)}
    (hnew : ∀ entry ∈ new, Reported root query start entry) (hdistinct : new.Nodup) :
    (new.insertionSort (keyLe query)).Pairwise fun a b =>
      (FoundMatch.ofHit query a).key < (FoundMatch.ofHit query b).key := by
  have hperm := List.perm_insertionSort (keyLe query) new
  have hle : (new.insertionSort (keyLe query)).Pairwise (keyLe query) := by
    have : Std.Total (keyLe query) := ⟨fun a b => le_total _ _⟩
    have : IsTrans _ (keyLe query) := ⟨fun a b c hab hbc => le_trans hab hbc⟩
    exact List.pairwise_insertionSort _ new
  refine (hle.and (hperm.nodup_iff.mpr hdistinct)).imp_of_mem fun {a b} ha hb hboth => ?_
  refine lt_of_le_of_ne hboth.1 fun hsame => hboth.2 ?_
  exact (hnew a (hperm.mem_iff.mp ha)).eq_of_key hquery (hnew b (hperm.mem_iff.mp hb)) hsame

end Output

theorem search_arguments {workspaceId : WorkspaceId} {arguments : Json} {path : RelativePath}
    {query : String} (h : Query.parseArguments workspaceId .searchText arguments =
      .ok ⟨path, some query⟩) :
    IsPath path.components ∧ query ≠ "" ∧ byteLen query ≤ maxSearchQueryBytes := by
  simp only [Query.parseArguments, Query.parseQuery, pathMember, if_true, Outcome.bind_eq_ok,
    Outcome.pure_eq_ok, Outcome.mapErr_eq_ok, Outcome.okOr_eq_ok, Option.filter_eq_some_iff,
    Prod.exists, Prod.mk.injEq, Query.ParsedArguments.mk.injEq] at h
  obtain ⟨_, -, _, _, ⟨_, -, _, hparse, -, rfl⟩, _, ⟨text, ⟨-, haccepts⟩, rfl⟩, rfl, hquery⟩ := h
  obtain rfl := Option.some.inj hquery
  simp only [Query.acceptsQuery, Bool.and_eq_true, bne_iff_ne, decide_eq_true_eq] at haccepts
  exact ⟨(parseCanonical_iff.mp hparse).1, haccepts.1.1.1, haccepts.1.1.2⟩

/-- What the output of a search is. -/
structure SearchOutput (root : TreeNode) (start : RelativePath) (query : String)
    (found : List FoundMatch) (truncated : Bool) : Prop where
  count : found.length ≤ maxSearchMatches
  ordered : found.Pairwise fun a b => a.key < b.key
  words : ∀ m ∈ found, m.line < 2 ^ 64 ∧ m.column < 2 ^ 64
  sound : ∀ m ∈ found, OccurrenceIn root start query m.file m.line m.column
  whole : truncated = false → Whole root start
  complete : truncated = false → ∀ file line column, OccurrenceIn root start query file line column →
    ∃ m ∈ found, m.file = file ∧ m.line = line ∧ m.column = column

theorem Finds.output {root : TreeNode} {query : String} {start : RelativePath}
    {state : TreeSearch} {new : List (RelativePath × SearchHit)} (hquery : query ≠ "")
    (h : Finds root query [start] .start state new) (hwithin : state.Within) (count : ℕ) :
    SearchOutput root start query
      (((new.insertionSort (keyLe query)).take count).map (FoundMatch.ofHit query))
      (state.truncated || decide (count < new.length)) := by
  have hperm := List.perm_insertionSort (keyLe query) new
  have hreported : ∀ entry ∈ new, Reported root query start entry := by
    intro entry hentry
    obtain ⟨_, honly, hreported⟩ := h.sound entry hentry
    exact List.mem_singleton.mp honly ▸ hreported
  have hfront : ∀ m ∈ ((new.insertionSort (keyLe query)).take count).map (FoundMatch.ofHit query),
      ∃ entry ∈ new, m = FoundMatch.ofHit query entry := by
    intro m hm
    obtain ⟨entry, hentry, rfl⟩ := List.mem_map.mp hm
    exact ⟨entry, hperm.mem_iff.mp (List.mem_of_mem_take hentry), rfl⟩
  have hlength : new.length ≤ maxSearchMatches := by
    have hfound := hwithin.found
    rw [h.found, List.length_append, List.length_map] at hfound
    exact (Nat.le_add_left _ _).trans hfound
  refine ⟨?_, ?_, ?_, ?_, ?_, ?_⟩
  · rw [List.length_map, List.length_take, hperm.length_eq]
    omega
  · exact List.pairwise_map.mpr
      ((sorted_strictly hquery hreported h.nodup).sublist (List.take_sublist _ _))
  · intro m hm
    obtain ⟨entry, hentry, rfl⟩ := hfront m hm
    exact ⟨(hreported entry hentry).written.line, (hreported entry hentry).written.column⟩
  · intro m hm
    obtain ⟨entry, hentry, rfl⟩ := hfront m hm
    exact (occurrenceIn_iff hquery).mpr ⟨entry.2, (hreported entry hentry).hit, rfl, rfl⟩
  · intro hclean
    exact ((h.complete (Bool.or_eq_false_iff.mp hclean).1).2 start (List.mem_singleton_self _)).1
  · intro hclean file line column hoccurrence
    obtain ⟨hstate, hall⟩ := Bool.or_eq_false_iff.mp hclean
    obtain ⟨hit, hhit, rfl, rfl⟩ := (occurrenceIn_iff hquery).mp hoccurrence
    have hmem := ((h.complete hstate).2 start (List.mem_singleton_self _)).2 _ hhit
    rw [decide_eq_false_iff_not, Nat.not_lt] at hall
    refine ⟨FoundMatch.ofHit query (file, hit), List.mem_map_of_mem ?_, rfl, rfl, rfl⟩
    rw [List.take_of_length_le (by rw [hperm.length_eq]; exact hall)]
    exact hperm.mem_iff.mpr hmem

/-- **What a search returns.** The matches are at most 128, strictly sorted by path, line and column, and
each is an occurrence of the query in a file below the start. At most 4096 entries are visited and at
most eight megabytes are read. The flag is set exactly when the walk has set it or a found match did not
fit into the output. Without it every file below the start is a text, and all its leftmost occurrences
are there. -/
theorem search_text_laws (E : CanonicalEncoder) (tree : DirectoryTree) {workspaceId : WorkspaceId}
    {arguments : Json} {path : RelativePath} {query : String} {observed : ObservedOutput}
    (harguments : Query.parseArguments workspaceId .searchText arguments = .ok ⟨path, some query⟩)
    (h : searchText E tree.root path query = .ok observed) :
    ∃ state found truncated, searchDirectory tree.root query path .start = .ok state ∧
      state.visitedEntries ≤ maxSearchVisitedEntries ∧ state.scannedBytes ≤ maxSearchTotalBytes ∧
      observed.payload =
        collectionPayload "matches" (List.map FoundMatch.json found) truncated ∧
      (truncated = false ↔ state.truncated = false ∧ found.length = state.found.length) ∧
      SearchOutput tree.root path query found truncated := by
  obtain ⟨hpath, hquery, hbytes⟩ := search_arguments harguments
  simp only [searchText, Outcome.bind_eq_ok] at h
  obtain ⟨_, -, state, hsearch, sorted, hsort, hbounded⟩ := h
  have hstart : TreeSearch.start.Within :=
    ⟨Nat.zero_le _, Nat.zero_le _, Nat.zero_le _, fun hexhausted => absurd hexhausted (by decide)⟩
  obtain ⟨hwithin, new, hfinds⟩ := searchDirectory_finds tree hquery hbytes hpath hstart hsearch
  have hfound : state.found = new.map fun entry => matchOf entry.1 query entry.2 := hfinds.found
  rw [hfound, sortMatches_eq fun entry hentry => by
    obtain ⟨_, honly, hreported⟩ := hfinds.sound entry hentry
    exact List.mem_singleton.mp honly ▸ hreported, Except.ok.injEq] at hsort
  subst hsort
  obtain ⟨⟨count, observed', _, -, houtput, -, hpayload, -⟩, -⟩ :=
    @bounded_collection_output_laws E "matches" (by decide)
      ((new.insertionSort (keyLe query)).map fun entry => matchOf entry.1 query entry.2)
      state.truncated
  obtain rfl : observed' = observed := Except.ok.inj (houtput.symm.trans hbounded)
  refine ⟨state, _, _, hsearch, hwithin.visited, hwithin.scanned, ?_, ?_,
    hfinds.output hquery hwithin count⟩
  · rw [hpayload, List.length_map, (List.perm_insertionSort _ _).length_eq, List.map_map,
      List.map_take]
    rfl
  · rw [Bool.or_eq_false_iff, decide_eq_false_iff_not, hfound, List.length_map, List.length_map,
      List.length_take, (List.perm_insertionSort _ _).length_eq]
    exact and_congr_right fun _ => by omega

/-- A root with one directory, which has one file. -/
def crateNode : TreeNode :=
  .directory true [⟨bytes "src",
    .directory true [⟨bytes "lib.rs", .file ⟨bytes "use std;\n// std", true, true⟩, true⟩], true⟩]

theorem crateNode_directory {names : List (List UInt8)} {listable : Bool}
    {entries : List (DirEntry TreeNode)} (h : crateNode.at? names = some (.directory listable entries)) :
    entries.map DirEntry.name = [bytes "src"] ∨ entries.map DirEntry.name = [bytes "lib.rs"] := by
  match names with
  | [] =>
    cases h
    exact Or.inl rfl
  | [name] =>
    obtain ⟨node, hchild, hnode⟩ := Option.bind_eq_some_iff.mp h
    obtain ⟨entry, hentry, rfl⟩ := Option.map_eq_some_iff.mp hchild
    obtain rfl := List.mem_singleton.mp (List.mem_of_find?_eq_some hentry)
    cases hnode
    exact Or.inr rfl
  | name :: next :: rest =>
    obtain ⟨node, hchild, hnode⟩ := Option.bind_eq_some_iff.mp h
    obtain ⟨entry, hentry, rfl⟩ := Option.map_eq_some_iff.mp hchild
    obtain rfl := List.mem_singleton.mp (List.mem_of_find?_eq_some hentry)
    obtain ⟨below, hbelow, hnext⟩ := Option.bind_eq_some_iff.mp hnode
    obtain ⟨file, hfile, rfl⟩ := Option.map_eq_some_iff.mp hbelow
    obtain rfl := List.mem_singleton.mp (List.mem_of_find?_eq_some hfile)
    cases rest with
    | nil => cases hnext
    | cons => cases hnext

def crateTree : DirectoryTree where
  root := crateNode
  distinct h := by
    rcases crateNode_directory h with hnames | hnames
    · rw [hnames]
      exact List.nodup_singleton _
    · rw [hnames]
      exact List.nodup_singleton _
  slashless h entry hentry := by
    have hmem := List.mem_map_of_mem (f := DirEntry.name) hentry
    rcases crateNode_directory h with hnames | hnames
    · rw [hnames, List.mem_singleton] at hmem
      rw [hmem]
      decide
    · rw [hnames, List.mem_singleton] at hmem
      rw [hmem]
      decide

/-- The matches of `std` in its file, in their order. -/
def crateMatches : List Json :=
  [matchJson ⟨["src", "lib.rs"]⟩ 1 5 "use std;", matchJson ⟨["src", "lib.rs"]⟩ 2 4 "// std"]

/-- Both occurrences are found, and the flag is not set. -/
theorem search_text_sample : ∃ observed state found,
    searchText queryEncoder crateTree.root ⟨[]⟩ "std" = .ok observed ∧
      observed.payload = collectionPayload "matches" crateMatches false ∧
      searchDirectory crateNode "std" ⟨[]⟩ .start = .ok state ∧ state.truncated = false ∧
      List.map FoundMatch.json found = crateMatches ∧
      SearchOutput crateNode ⟨[]⟩ "std" found false := by
  have hrun : (searchText queryEncoder crateTree.root ⟨[]⟩ "std").value?.any (fun observed =>
      decide (observed.payload = collectionPayload "matches" crateMatches false)) = true := by
    decide +kernel
  obtain ⟨observed, hobserved, hpayload⟩ := Outcome.exists_ok_of_any hrun
  replace hpayload := of_decide_eq_true hpayload
  obtain ⟨state, found, truncated, hsearch, -, -, hfound, hflag, houtput⟩ :=
    @search_text_laws queryEncoder crateTree ⟨"main", by decide⟩
      (.object [("path", .string "workspace:main"), ("query", .string "std")]) ⟨[]⟩ "std" observed
      (by decide) hobserved
  have hsame := hfound.symm.trans hpayload
  rw [collectionPayload_eq (by decide), collectionPayload_eq (by decide)] at hsame
  obtain ⟨hmatches, rfl⟩ : List.map FoundMatch.json found = crateMatches ∧ truncated = false := by
    simpa using hsame
  exact ⟨observed, state, found, hobserved, hpayload, hsearch, (hflag.mp rfl).1, hmatches, houtput⟩

end Xgeny
