import Mathlib.Data.List.Sort
import Xgeny.Lib.KeyedMap

set_option autoImplicit false
set_option linter.unusedSectionVars false

/-!
# Tables

A table of a database is a list of rows, in the order in which they were inserted. Its constraints
are checked when a row is inserted, against the rows that are there.

* `Constraint`: `check`, `unique` and `references`; `insertRow`: one row more, or the message of the
  first constraint that it violates; `Admits`: it violates none;
* `orderBy`: the rows in the order of a key; **`orderBy_eq`**: the only strictly ordered permutation;
* `selectWhere`: the first row under a key;
* `Stores`: the rows of a table are the entries of a map; **`Stores.select`**, **`Stores.orderBy`**,
  **`Stores.adds`**: what is read and written is read and written in the map.
-/

namespace Table

variable {ρ κ π β : Type}

/-! ## Constraints -/

/-- A constraint of a table: its message, and whether a new row violates it. -/
structure Constraint (ρ : Type) where
  message : String
  violated : List ρ → ρ → Bool

/-- `CHECK`. -/
def Constraint.check (message : String) (p : ρ → Bool) : Constraint ρ where
  message := message
  violated _ row := !p row

/-- `UNIQUE`, and `PRIMARY KEY`. -/
def Constraint.unique [DecidableEq κ] (message : String) (key : ρ → κ) : Constraint ρ where
  message := message
  violated rows row := rows.any fun other => key other = key row

/-- `FOREIGN KEY … REFERENCES`, with the parent keys once the row is there. A missing key references
nothing. -/
def Constraint.references [DecidableEq κ] (message : String) (key : ρ → Option κ)
    (parents : List ρ → List κ) : Constraint ρ where
  message := message
  violated rows row := (key row).any fun k => k ∉ parents (rows ++ [row])

/-- `INSERT INTO`. -/
def insertRow (constraints : List (Constraint ρ)) (rows : List ρ) (row : ρ) :
    Outcome String (List ρ) :=
  match constraints.find? fun constraint => constraint.violated rows row with
  | some constraint => Outcome.fail constraint.message
  | none => .ok (rows ++ [row])

/-- A new row violates none of the constraints. -/
def Admits (constraints : List (Constraint ρ)) (rows : List ρ) (row : ρ) : Prop :=
  ∀ constraint ∈ constraints, constraint.violated rows row = false

@[simp] theorem admits_nil {rows : List ρ} {row : ρ} : Admits [] rows row := by simp [Admits]

@[simp] theorem admits_cons {constraint : Constraint ρ} {constraints : List (Constraint ρ)}
    {rows : List ρ} {row : ρ} : Admits (constraint :: constraints) rows row ↔
      constraint.violated rows row = false ∧ Admits constraints rows row := by simp [Admits]

@[simp] theorem insertRow_eq_ok {constraints : List (Constraint ρ)} {rows rows' : List ρ} {row : ρ} :
    insertRow constraints rows row = .ok rows' ↔
      Admits constraints rows row ∧ rows ++ [row] = rows' := by
  unfold insertRow Admits
  split
  · rename_i constraint hfound
    obtain ⟨hviolated, hmem⟩ :=
      And.intro (List.find?_some hfound) (List.mem_of_find?_eq_some hfound)
    simp only [Outcome.fail_eq_ok, false_iff, not_and]
    intro hall
    rw [hall constraint hmem] at hviolated
    cases hviolated
  · rename_i hnone
    simp only [List.find?_eq_none, Bool.not_eq_true] at hnone
    simp only [Except.ok.injEq]
    exact ⟨fun h => ⟨hnone, h⟩, And.right⟩

@[simp] theorem check_violated {message : String} {p : ρ → Bool} {rows : List ρ} {row : ρ} :
    (Constraint.check message p).violated rows row = false ↔ p row = true := by
  simp [Constraint.check]

@[simp] theorem unique_violated [DecidableEq κ] {message : String} {key : ρ → κ} {rows : List ρ}
    {row : ρ} :
    (Constraint.unique message key).violated rows row = false ↔ key row ∉ rows.map key := by
  simp [Constraint.unique]

@[simp] theorem references_violated [DecidableEq κ] {message : String} {key : ρ → Option κ}
    {parents : List ρ → List κ} {rows : List ρ} {row : ρ} :
    (Constraint.references message key parents).violated rows row = false ↔
      ∀ k, key row = some k → k ∈ parents (rows ++ [row]) := by
  cases hkey : key row <;> simp [Constraint.references, hkey]

/-! ## Unique keys -/

theorem not_mem_of_nodup {key : ρ → κ} {rows after : List ρ} {row : ρ}
    (h : ((rows ++ row :: after).map key).Nodup) : key row ∉ rows.map key := by
  rw [List.map_append, List.map_cons] at h
  intro hmem
  exact (List.disjoint_of_nodup_append h) hmem List.mem_cons_self

/-! ## Reads -/

section

variable [LinearOrder κ]

/-- `ORDER BY`. -/
def orderBy (key : ρ → κ) (rows : List ρ) : List ρ :=
  rows.insertionSort fun a b => key a ≤ key b

theorem orderBy_perm (key : ρ → κ) (rows : List ρ) : (orderBy key rows).Perm rows :=
  List.perm_insertionSort _ _

theorem pairwise_orderBy (key : ρ → κ) (rows : List ρ) :
    (orderBy key rows).Pairwise fun a b => key a ≤ key b := by
  have htotal : Std.Total fun a b : ρ => key a ≤ key b := ⟨fun a b => le_total _ _⟩
  have htrans : IsTrans ρ fun a b => key a ≤ key b := ⟨fun a b c => le_trans⟩
  exact List.pairwise_insertionSort _ rows

/-- **The rows in strict order** are what `ORDER BY` returns, however they were inserted. -/
theorem orderBy_eq {key : ρ → κ} {rows sorted : List ρ} (hperm : rows.Perm sorted)
    (hsorted : sorted.Pairwise fun a b => key a < key b) : orderBy key rows = sorted := by
  have hnodup : (sorted.map key).Nodup :=
    List.pairwise_map.mpr (hsorted.imp fun h => ne_of_lt h)
  refine List.Perm.eq_of_pairwise ?_ (pairwise_orderBy key rows) (hsorted.imp le_of_lt)
    ((orderBy_perm key rows).trans hperm)
  intro a b ha hb hab hba
  have ha' : a ∈ sorted := hperm.mem_iff.mp ((orderBy_perm key rows).mem_iff.mp ha)
  exact List.inj_on_of_nodup_map hnodup ha' hb (le_antisymm hab hba)

theorem orderBy_congr {key : ρ → κ} {rows rows' : List ρ} (hperm : rows.Perm rows')
    (hkeys : (rows'.map key).Nodup) : orderBy key rows = orderBy key rows' := by
  refine orderBy_eq (hperm.trans (orderBy_perm key rows').symm) ?_
  have hnodup : ((orderBy key rows').map key).Nodup :=
    ((orderBy_perm key rows').map key).nodup_iff.mpr hkeys
  exact ((pairwise_orderBy key rows').and (List.pairwise_map.mp hnodup)).imp
    fun h => lt_of_le_of_ne h.1 h.2

theorem orderBy_map {key : ρ → κ} (f : π → ρ) (xs : List π) :
    orderBy key (xs.map f) = (orderBy (fun x => key (f x)) xs).map f := by
  exact (List.map_insertionSort _ _ f xs fun _ _ _ _ => Iff.rfl).symm

end

theorem orderBy_key {κ : Type} [LinearOrder κ] {key : ρ → κ} {κ' : Type} [LinearOrder κ']
    {key' : ρ → κ'} {rows : List ρ}
    (h : ∀ a ∈ rows, ∀ b ∈ rows, key a ≤ key b ↔ key' a ≤ key' b) :
    orderBy key rows = orderBy key' rows := by
  have hmap := List.map_insertionSort (fun a b => key a ≤ key b) (fun a b => key' a ≤ key' b) id
    rows h
  rwa [List.map_id, List.map_id] at hmap

/-- `WHERE key = k`, the first row. -/
def selectWhere [DecidableEq κ] (key : ρ → κ) (k : κ) (rows : List ρ) : Option ρ :=
  rows.find? fun row => key row = k

theorem selectWhere_eq_some [DecidableEq κ] {key : ρ → κ} {k : κ} {rows : List ρ} {row : ρ}
    (hkeys : (rows.map key).Nodup) : selectWhere key k rows = some row ↔ row ∈ rows ∧ key row = k := by
  constructor
  · intro h
    exact ⟨List.mem_of_find?_eq_some h, by simpa using List.find?_some h⟩
  · rintro ⟨hmem, rfl⟩
    cases hfound : selectWhere key (key row) rows with
    | none =>
      have hne := List.find?_eq_none.mp hfound row hmem
      simp at hne
    | some other =>
      have hkey : key other = key row := by simpa using List.find?_some hfound
      rw [List.inj_on_of_nodup_map hkeys (List.mem_of_find?_eq_some hfound) hmem hkey]

theorem selectWhere_eq_none [DecidableEq κ] {key : ρ → κ} {k : κ} {rows : List ρ} :
    selectWhere key k rows = none ↔ ∀ row ∈ rows, key row ≠ k := by
  simp [selectWhere, List.find?_eq_none]

/-! ## Tables that store a map -/

section Stores

open Std

variable [Ord κ] [TransOrd κ] [LawfulEqOrd κ]

/-- The rows are the entries of a map, each under its key. -/
structure Stores (key : ρ → κ) (row : κ → β → ρ) (m : BTreeMap κ β) (rows : List ρ) : Prop where
  perm : rows.Perm (m.toList.map fun entry => row entry.1 entry.2)
  keyed : ∀ k v, m[k]? = some v → key (row k v) = k

variable {key : ρ → κ} {row : κ → β → ρ} {m : BTreeMap κ β} {rows : List ρ}

theorem Stores.empty : Stores key row ∅ [] := by
  refine ⟨?_, by simp⟩
  rw [ExtTreeMap.toList_eq_nil_iff.mpr rfl]
  rfl

theorem Stores.mem_iff (h : Stores key row m rows) {r : ρ} :
    r ∈ rows ↔ ∃ k v, m[k]? = some v ∧ row k v = r := by
  rw [h.perm.mem_iff, List.mem_map]
  constructor
  · rintro ⟨⟨k, v⟩, hmem, rfl⟩
    exact ⟨k, v, ExtTreeMap.mem_toList_iff_getElem?_eq_some.mp hmem, rfl⟩
  · rintro ⟨k, v, hk, rfl⟩
    exact ⟨(k, v), ExtTreeMap.mem_toList_iff_getElem?_eq_some.mpr hk, rfl⟩

theorem Stores.map_key (h : Stores key row m rows) : (rows.map key).Perm m.keys := by
  refine (h.perm.map key).trans (List.Perm.of_eq ?_)
  rw [List.map_map, ← ExtTreeMap.map_fst_toList_eq_keys]
  refine List.map_congr_left fun entry hentry => ?_
  exact h.keyed entry.1 entry.2 (ExtTreeMap.mem_toList_iff_getElem?_eq_some.mp hentry)

theorem Stores.nodup (h : Stores key row m rows) : (rows.map key).Nodup :=
  h.map_key.nodup_iff.mpr ExtTreeMap.nodup_keys

/-- **A column that tells the entries apart** has distinct values. -/
theorem Stores.nodup_column {column : ρ → π} (h : Stores key row m rows)
    (hcolumn : ∀ a v b w, m[a]? = some v → m[b]? = some w → column (row a v) = column (row b w) →
      a = b) : (rows.map column).Nodup := by
  refine List.Nodup.map_on (fun r hr q hq heq => ?_) (List.Nodup.of_map key h.nodup)
  obtain ⟨a, v, hv, rfl⟩ := h.mem_iff.mp hr
  obtain ⟨b, w, hw, rfl⟩ := h.mem_iff.mp hq
  obtain rfl := hcolumn a v b w hv hw heq
  rw [Option.some.inj (hv.symm.trans hw)]

theorem Stores.mem_keys (h : Stores key row m rows) {k : κ} : k ∈ rows.map key ↔ k ∈ m :=
  h.map_key.mem_iff.trans ExtTreeMap.mem_keys

/-- **A row is selected as its entry is looked up.** -/
theorem Stores.select [DecidableEq κ] (h : Stores key row m rows) (k : κ) :
    selectWhere key k rows = m[k]?.map (row k) := by
  cases hk : m[k]? with
  | none =>
    refine selectWhere_eq_none.mpr fun r hr heq => ?_
    exact BTreeMap.get_eq_none_iff.mp hk (h.mem_keys.mp (heq ▸ List.mem_map_of_mem hr))
  | some v =>
    exact (selectWhere_eq_some h.nodup).mpr ⟨h.mem_iff.mpr ⟨k, v, hk, rfl⟩, h.keyed k v hk⟩

/-- **The rows in the order of the key** are the entries in the order of the map. -/
theorem Stores.orderBy {κ' : Type} [LinearOrder κ'] (h : Stores key row m rows) (other : ρ → κ')
    (hlt : ∀ a b : ρ, compare (key a) (key b) = .lt → other a < other b) :
    Table.orderBy other rows = m.toList.map fun entry => row entry.1 entry.2 := by
  refine orderBy_eq h.perm ?_
  rw [List.pairwise_map]
  refine (ExtTreeMap.ordered_keys_toList (t := m)).imp_of_mem fun {a b} ha hb hab => hlt _ _ ?_
  rwa [h.keyed _ _ (ExtTreeMap.mem_toList_iff_getElem?_eq_some.mp ha),
    h.keyed _ _ (ExtTreeMap.mem_toList_iff_getElem?_eq_some.mp hb)]

/-- **A new row is a new entry.** -/
theorem Stores.insert (h : Stores key row m rows) {k : κ} {v : β} (hnew : k ∉ m)
    (hkey : key (row k v) = k) : Stores key row (m.insert k v) (rows ++ [row k v]) where
  perm := by
    have hentries := BTreeMap.toList_perm
      (ExtTreeMap.getElem?_insert_self (t := m) (k := k) (v := v))
    rw [BTreeMap.erase_insert_self, BTreeMap.erase_of_not_mem hnew] at hentries
    have hrows := hentries.map fun entry => row entry.1 entry.2
    exact (List.perm_append_singleton _ _).trans ((h.perm.cons _).trans hrows.symm)
  keyed := by
    classical
    intro a w hw
    rw [BTreeMap.get_insert] at hw
    split at hw
    · rename_i hka
      obtain rfl := hka
      obtain rfl := Option.some.inj hw
      exact hkey
    · exact h.keyed a w hw

/-- **New rows are new entries.** -/
theorem Stores.adds {m' : BTreeMap κ β} {entries : List (κ × β)} (h : Stores key row m rows)
    (hadds : BTreeMap.Adds m m' entries) (hkey : ∀ e ∈ entries, key (row e.1 e.2) = e.1) :
    Stores key row m' (rows ++ entries.map fun e => row e.1 e.2) where
  perm := by
    have hnodup : ∀ t : BTreeMap κ β, t.toList.Nodup := fun t => by
      refine List.Nodup.of_map Prod.fst ?_
      rw [ExtTreeMap.map_fst_toList_eq_keys]
      exact ExtTreeMap.nodup_keys
    have hentries : (m.toList ++ entries).Perm m'.toList := by
      refine (List.perm_ext_iff_of_nodup ?_ (hnodup m')).mpr fun e => ?_
      · refine (hnodup m).append (List.Nodup.of_map _ hadds.distinct) fun e hold hnew => ?_
        exact hadds.free e hnew (BTreeMap.mem_iff_exists.mpr
          ⟨e.2, ExtTreeMap.mem_toList_iff_getElem?_eq_some.mp hold⟩)
      · rw [List.mem_append, ExtTreeMap.mem_toList_iff_getElem?_eq_some,
          ExtTreeMap.mem_toList_iff_getElem?_eq_some, hadds.lookup]
    refine (h.perm.append_right _).trans ?_
    rw [← List.map_append]
    exact hentries.map _
  keyed k v hk := by
    rcases (hadds.lookup k v).mp hk with hold | hnew
    · exact h.keyed k v hold
    · exact hkey (k, v) hnew

theorem Stores.congr {row' : κ → β → ρ} (h : Stores key row m rows)
    (hrow : ∀ k v, m[k]? = some v → row' k v = row k v) : Stores key row' m rows where
  perm := by
    refine h.perm.trans (List.Perm.of_eq (List.map_congr_left fun entry hentry => ?_))
    exact (hrow _ _ (ExtTreeMap.mem_toList_iff_getElem?_eq_some.mp hentry)).symm
  keyed k v hk := by
    rw [hrow k v hk]
    exact h.keyed k v hk

theorem Stores.orderBy_other {κ' : Type} [LinearOrder κ'] (h : Stores key row m rows) (other : ρ → κ')
    (hother : ∀ a ∈ rows, ∀ b ∈ rows, other a = other b → key a = key b) :
    Table.orderBy other rows =
      (Table.orderBy (fun entry => other (row entry.1 entry.2)) m.toList).map
        fun entry => row entry.1 entry.2 := by
  rw [← orderBy_map]
  refine orderBy_congr h.perm ((h.perm.map other).nodup_iff.mp ?_)
  refine List.Nodup.map_on (fun a ha b hb hab => ?_) (List.Nodup.of_map key h.nodup)
  exact List.inj_on_of_nodup_map h.nodup ha hb (hother a ha b hb hab)

/-- **A loop over the rows in order rebuilds the map.** -/
theorem foldl_insert_rows {ε : Type} (row : κ → β → ρ) {m : BTreeMap κ β}
    {f : BTreeMap κ β → ρ → Outcome ε (BTreeMap κ β)}
    (hf : ∀ k v acc, m[k]? = some v → k ∉ acc → f acc (row k v) = .ok (acc.insert k v)) :
    Outcome.foldl f ∅ (m.toList.map fun entry => row entry.1 entry.2) = .ok m := by
  have hloop : ∀ (entries : List (κ × β)) (acc : BTreeMap κ β),
      (∀ entry ∈ entries, m[entry.1]? = some entry.2) → (∀ entry ∈ entries, entry.1 ∉ acc) →
      (entries.map Prod.fst).Nodup →
      Outcome.foldl f acc (entries.map fun entry => row entry.1 entry.2) =
        .ok (BTreeMap.insertAll Prod.fst Prod.snd acc entries) := by
    intro entries
    induction entries with
    | nil => exact fun _ _ _ _ => rfl
    | cons entry entries ih =>
      intro acc hentries hfree hnodup
      obtain ⟨hentry, hrest⟩ := List.forall_mem_cons.mp hentries
      obtain ⟨hnew, hfree⟩ := List.forall_mem_cons.mp hfree
      obtain ⟨hout, hnodup⟩ := List.nodup_cons.mp hnodup
      simp only [List.map_cons, Outcome.foldl, Outcome.bind_eq_ok]
      refine ⟨_, hf _ _ acc hentry hnew, ih _ hrest (fun other hother hin => ?_) hnodup⟩
      rcases BTreeMap.mem_insert_iff.mp hin with heq | hin
      · exact hout (heq ▸ List.mem_map_of_mem hother)
      · exact hfree other hother hin
  have hentries : ∀ entry ∈ m.toList, m[entry.1]? = some entry.2 :=
    fun entry hentry => ExtTreeMap.mem_toList_iff_getElem?_eq_some.mp hentry
  have hnodup : (m.toList.map Prod.fst).Nodup := by
    rw [ExtTreeMap.map_fst_toList_eq_keys]
    exact ExtTreeMap.nodup_keys
  rw [hloop _ _ hentries (fun _ _ => ExtTreeMap.not_mem_empty) hnodup, Except.ok.injEq]
  refine ExtTreeMap.ext_getElem? fun k => ?_
  cases hk : m[k]? with
  | some v =>
    exact BTreeMap.get_insertAll_of_mem (x := (k, v)) hnodup
      (ExtTreeMap.mem_toList_iff_getElem?_eq_some.mpr hk)
  | none =>
    rw [BTreeMap.get_insertAll_of_ne, ExtTreeMap.getElem?_empty]
    rintro entry hentry rfl
    rw [hentries entry hentry] at hk
    cases hk

end Stores

/-! ## Decoded rows -/

theorem mapM_map_eq_ok {ε : Type} {f : ρ → Outcome ε π} {row : π → ρ} {xs : List π}
    (h : ∀ x ∈ xs, f (row x) = .ok x) : (xs.map row).mapM f = .ok xs := by
  rw [Outcome.mapM_eq_ok, List.forall₂_map_left_iff]
  exact List.forall₂_same.mpr h

theorem forall_zip_map {row : π → ρ} {p : π × ρ → Prop} {xs : List π} :
    (∀ entry ∈ xs.zip (xs.map row), p entry) ↔ ∀ x ∈ xs, p (x, row x) := by
  induction xs with
  | nil => simp
  | cons x xs ih => simp only [List.map_cons, List.zip_cons_cons, List.forall_mem_cons, ih]

end Table
