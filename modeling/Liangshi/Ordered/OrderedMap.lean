import Liangshi.Ordered.OrderedSet

/-!
# Ordered maps

Finite maps kept as lists of entries with strictly increasing keys, as a balanced search tree
enumerates them: lookup, assignment, updates of all values, and the removal of the first entry
whose value passes a test.
-/

namespace Ordered

/-- A finite map, enumerated by increasing key. -/
structure OrderedMap (κ ν : Type) [LinearOrder κ] where
  entries : List (κ × ν)
  increasing : entries.Pairwise fun a b => a.1 < b.1

namespace OrderedMap

variable {κ ν μ : Type} [LinearOrder κ]

instance [DecidableEq ν] : DecidableEq (OrderedMap κ ν) := fun m n =>
  decidable_of_iff (m.entries = n.entries) (by cases m; cases n; simp)

/-- The map without entries. -/
def empty : OrderedMap κ ν := ⟨[], List.Pairwise.nil⟩

/-! ## Lookup -/

/-- The value of a key in a list of entries. -/
def findEntry (k : κ) : List (κ × ν) → Option ν
  | [] => none
  | e :: l => if e.1 = k then some e.2 else findEntry k l

/-- The value of a key. -/
def find (m : OrderedMap κ ν) (k : κ) : Option ν := findEntry k m.entries

/-- Nothing is found in the empty map. -/
@[simp] lemma find_empty (k : κ) : (empty : OrderedMap κ ν).find k = none := rfl

/-- With increasing keys, lookup finds exactly the entries. -/
lemma findEntry_eq_some {k : κ} {v : ν} {l : List (κ × ν)}
    (h : l.Pairwise fun a b => a.1 < b.1) : findEntry k l = some v ↔ (k, v) ∈ l := by
  induction l with
  | nil => simp [findEntry]
  | cons e l ih =>
    obtain ⟨he, hl⟩ := List.pairwise_cons.mp h
    obtain ⟨k₁, v₁⟩ := e
    unfold findEntry
    split_ifs with hk
    · subst hk
      have hout : (k₁, v) ∉ l := fun hmem => lt_irrefl k₁ (he _ hmem)
      simp [hout, eq_comm]
    · rw [ih hl, List.mem_cons, or_iff_right]
      rintro ⟨⟩
      exact hk rfl

/-- Lookup finds exactly the entries. -/
lemma find_eq_some {m : OrderedMap κ ν} {k : κ} {v : ν} :
    m.find k = some v ↔ (k, v) ∈ m.entries :=
  findEntry_eq_some m.increasing

/-! ## Assignment -/

/-- Put an entry in its place, replacing the one with the same key. -/
def insertEntry (k : κ) (v : ν) : List (κ × ν) → List (κ × ν)
  | [] => [(k, v)]
  | e :: l =>
    if k < e.1 then (k, v) :: e :: l else if e.1 < k then e :: insertEntry k v l else (k, v) :: l

/-- The keys after an assignment. -/
lemma key_of_mem_insertEntry {k : κ} {v : ν} {e : κ × ν} {l : List (κ × ν)}
    (h : e ∈ insertEntry k v l) : e.1 = k ∨ e ∈ l := by
  induction l with
  | nil =>
    obtain rfl := List.mem_singleton.mp h
    exact Or.inl rfl
  | cons e' l ih =>
    unfold insertEntry at h
    split_ifs at h with h1 h2
    · rcases List.mem_cons.mp h with rfl | h
      · exact Or.inl rfl
      · exact Or.inr h
    · rcases List.mem_cons.mp h with rfl | h
      · exact Or.inr List.mem_cons_self
      · exact (ih h).imp_right fun hmem => List.mem_cons_of_mem e' hmem
    · rcases List.mem_cons.mp h with rfl | h
      · exact Or.inl rfl
      · exact Or.inr (List.mem_cons_of_mem e' h)

/-- Assignment keeps the keys increasing. -/
lemma increasing_insertEntry {k : κ} {v : ν} {l : List (κ × ν)}
    (h : l.Pairwise fun a b => a.1 < b.1) :
    (insertEntry k v l).Pairwise fun a b => a.1 < b.1 := by
  induction l with
  | nil => simp [insertEntry]
  | cons e l ih =>
    obtain ⟨he, hl⟩ := List.pairwise_cons.mp h
    unfold insertEntry
    split_ifs with h1 h2
    · refine List.pairwise_cons.mpr ⟨fun x hx => ?_, h⟩
      rcases List.mem_cons.mp hx with rfl | hx
      · exact h1
      · exact lt_trans h1 (he x hx)
    · refine List.pairwise_cons.mpr ⟨fun x hx => ?_, ih hl⟩
      rcases key_of_mem_insertEntry hx with hkey | hx
      · rw [hkey]
        exact h2
      · exact he x hx
    · obtain rfl : k = e.1 := le_antisymm (not_lt.mp h2) (not_lt.mp h1)
      exact List.pairwise_cons.mpr ⟨he, hl⟩

/-- Lookup after an assignment. -/
lemma findEntry_insertEntry {k k' : κ} {v : ν} {l : List (κ × ν)} :
    findEntry k' (insertEntry k v l) = if k = k' then some v else findEntry k' l := by
  induction l with
  | nil => simp [insertEntry, findEntry]
  | cons e l ih =>
    unfold insertEntry
    split_ifs with h1 h2 h3 h4 h5
    · simp [findEntry, h2]
    · simp [findEntry, h2]
    · rw [findEntry, ih, if_neg, if_pos h4]
      rw [← h4]
      exact ne_of_lt h3
    · rw [findEntry, ih, if_neg h4]
      rfl
    · simp [findEntry, h5]
    · obtain rfl : k = e.1 := le_antisymm (not_lt.mp h3) (not_lt.mp h1)
      simp [findEntry, h5]

/-- Assign a value to a key. -/
def insert (m : OrderedMap κ ν) (k : κ) (v : ν) : OrderedMap κ ν :=
  ⟨insertEntry k v m.entries, increasing_insertEntry m.increasing⟩

/-- What is found once a value has been inserted. -/
@[simp] lemma find_insert (m : OrderedMap κ ν) (k k' : κ) (v : ν) :
    (m.insert k v).find k' = if k = k' then some v else m.find k' :=
  findEntry_insertEntry

/-! ## Removal and updates -/

/-- Remove a key. -/
def erase (m : OrderedMap κ ν) (k : κ) : OrderedMap κ ν :=
  ⟨m.entries.filter fun e => e.1 ≠ k, m.increasing.filter _⟩

/-- What is found once a key has been erased. -/
@[simp] lemma find_erase (m : OrderedMap κ ν) (k k' : κ) :
    (m.erase k).find k' = if k = k' then none else m.find k' := by
  refine Option.ext fun v => ?_
  rw [find_eq_some]
  split_ifs with h
  · simp [erase, h]
  · rw [find_eq_some]
    simp [erase, Ne.symm h]

/-- Update every value. -/
def mapValues (m : OrderedMap κ ν) (f : ν → μ) : OrderedMap κ μ :=
  ⟨m.entries.map fun e => (e.1, f e.2), by
    rw [List.pairwise_map]
    exact m.increasing⟩

/-- Lookup after an update of the values. -/
lemma findEntry_map (f : ν → μ) (k : κ) (l : List (κ × ν)) :
    findEntry k (l.map fun e => (e.1, f e.2)) = (findEntry k l).map f := by
  induction l with
  | nil => rfl
  | cons e l ih =>
    simp only [List.map_cons, findEntry]
    split_ifs with h
    · rfl
    · exact ih

/-- What is found once all values have been changed. -/
@[simp] lemma find_mapValues (m : OrderedMap κ ν) (f : ν → μ) (k : κ) :
    (m.mapValues f).find k = (m.find k).map f :=
  findEntry_map f k m.entries

/-- Two updates of all values, one after the other. -/
lemma mapValues_mapValues {ξ : Type} (m : OrderedMap κ ν) (f : ν → μ) (g : μ → ξ) :
    (m.mapValues f).mapValues g = m.mapValues (g ∘ f) := by
  unfold mapValues
  congr 1
  exact List.map_map

/-- Assigning the value that a key has changes nothing. -/
lemma insert_of_find {m : OrderedMap κ ν} {k : κ} {v : ν} (h : m.find k = some v) :
    m.insert k v = m := by
  have hentries : ∀ l : List (κ × ν), l.Pairwise (fun a b => a.1 < b.1) → (k, v) ∈ l →
      insertEntry k v l = l := by
    intro l hl hmem
    induction l with
    | nil => cases hmem
    | cons e l ih =>
      obtain ⟨he, hl⟩ := List.pairwise_cons.mp hl
      unfold insertEntry
      rcases List.mem_cons.mp hmem with rfl | hmem
      · rw [if_neg (lt_irrefl k), if_neg (lt_irrefl k)]
      · have hlt : e.1 < k := he _ hmem
        rw [if_neg (not_lt_of_gt hlt), if_pos hlt, ih hl hmem]
  obtain ⟨entries, hincreasing⟩ := m
  have heq := hentries entries hincreasing (find_eq_some.mp h)
  unfold insert
  congr

/-- An update of all values after an assignment. -/
lemma mapValues_insert (m : OrderedMap κ ν) (f : ν → μ) (k : κ) (v : ν) :
    (m.insert k v).mapValues f = (m.mapValues f).insert k (f v) := by
  have hentries : ∀ l : List (κ × ν), (insertEntry k v l).map (fun e => (e.1, f e.2)) =
      insertEntry k (f v) (l.map fun e => (e.1, f e.2)) := by
    intro l
    induction l with
    | nil => rfl
    | cons e l ih =>
      simp only [insertEntry, List.map_cons]
      split_ifs
      · rfl
      · rw [List.map_cons, ih]
      · rfl
  obtain ⟨entries, hincreasing⟩ := m
  have heq := hentries entries
  unfold insert mapValues
  congr

/-- Remove the first entry whose value passes a test. -/
def eraseFirst (m : OrderedMap κ ν) (p : ν → Bool) : OrderedMap κ ν :=
  ⟨m.entries.eraseP fun e => p e.2, m.increasing.sublist (List.eraseP_sublist)⟩

/-- Entries whose value fails the test stay. -/
lemma find_eraseFirst_of_neg {m : OrderedMap κ ν} {p : ν → Bool} {k : κ} {v : ν}
    (hp : ¬ p v) : (m.eraseFirst p).find k = some v ↔ m.find k = some v := by
  rw [find_eq_some, find_eq_some]
  exact List.mem_eraseP_of_neg hp

omit [LinearOrder κ] in
/-- Of the entries whose value passes the test, all but the first stay. -/
lemma filter_eraseP (p : ν → Bool) (l : List (κ × ν)) :
    (l.eraseP fun e => p e.2).filter (fun e => p e.2) = (l.filter fun e => p e.2).tail := by
  induction l with
  | nil => rfl
  | cons e l ih =>
    by_cases h : p e.2
    · simp [h]
    · simp [h, ih]

/-- Only entries of the map are left. -/
lemma find_of_find_eraseFirst {m : OrderedMap κ ν} {p : ν → Bool} {k : κ} {v : ν}
    (h : (m.eraseFirst p).find k = some v) : m.find k = some v := by
  rw [find_eq_some] at h ⊢
  exact List.mem_of_mem_eraseP h

end OrderedMap

end Ordered
