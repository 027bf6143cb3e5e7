import Liangshi.Ordered.Mirror
import Mathlib.Data.List.Sort

/-!
# Lists sorted by a key

A list whose items are sorted by a key, no two of one key, is an ordered map written down without its
keys.  Taking out the item of a key, putting another one at the end and sorting again is an assignment.
-/

namespace Ordered

variable {α κ : Type} [LinearOrder κ] {key : α → κ} {l : List α} {m : OrderedMap κ α}

/-- The first entries of a map. -/
def OrderedMap.firsts (m : OrderedMap κ α) (n : Nat) : OrderedMap κ α :=
  ⟨m.entries.take n, m.increasing.sublist (List.take_sublist n m.entries)⟩

/-- A map has no more entries than the keys it uses. -/
lemma OrderedMap.firsts_of_keys {keys : List κ} (h : ∀ k a, m.find k = some a → k ∈ keys) :
    m.firsts keys.length = m := by
  have hsubset : m.entries.map Prod.fst ⊆ keys := by
    intro k hk
    obtain ⟨e, he, rfl⟩ := List.mem_map.mp hk
    exact h e.1 e.2 (OrderedMap.find_eq_some.mpr he)
  have hlength := (List.subperm_of_subset m.nodup_keys hsubset).length_le
  rw [List.length_map] at hlength
  have htake : m.entries.take keys.length = m.entries := List.take_of_length_le hlength
  obtain ⟨entries, hincreasing⟩ := m
  rw [OrderedMap.firsts]
  congr

/-- A list has the values of a map, in the order of their keys. -/
def Lists (key : α → κ) (l : List α) (m : OrderedMap κ α) : Prop :=
  m.entries = l.map fun a => (key a, a)

/-- The empty list lists nothing. -/
lemma lists_empty : Lists key [] .empty := rfl

namespace Lists

/-- The first elements of a list. -/
lemma take (h : Lists key l m) (n : Nat) : Lists key (l.take n) (m.firsts n) := by
  have hentries : m.entries.take n = (l.take n).map fun a => (key a, a) := by rw [h, List.map_take]
  exact hentries

/-- What is in the list is found by its key. -/
lemma mem_iff (h : Lists key l m) {a : α} : a ∈ l ↔ m.find (key a) = some a := by
  rw [OrderedMap.find_eq_some, h, List.mem_map]
  constructor
  · exact fun ha => ⟨a, ha, rfl⟩
  · rintro ⟨b, hb, heq⟩
    rwa [← (Prod.mk.inj heq).2]

/-- What is found has the key by which it is found. -/
lemma key_of_find (h : Lists key l m) {k : κ} {a : α} (hfind : m.find k = some a) : key a = k := by
  rw [OrderedMap.find_eq_some, h, List.mem_map] at hfind
  obtain ⟨b, -, heq⟩ := hfind
  rw [← (Prod.mk.inj heq).1, (Prod.mk.inj heq).2]

/-- The keys of the list increase. -/
lemma increasing (h : Lists key l m) : l.Pairwise fun a b => key a < key b := by
  have hentries := m.increasing
  rwa [h, List.pairwise_map] at hentries

/-- The list of a map is the only one that is sorted and has the same items. -/
lemma of_mem_iff (hl : l.Pairwise fun a b => key a < key b)
    (hmem : ∀ k a, m.find k = some a ↔ a ∈ l ∧ key a = k) : Lists key l m := by
  have hincreasing : (l.map fun a => (key a, a)).Pairwise fun e e' => e.1 < e'.1 :=
    List.pairwise_map.mpr hl
  have hirrefl : Std.Irrefl fun e e' : κ × α => e.1 < e'.1 := ⟨fun e => lt_irrefl e.1⟩
  refine m.increasing.eq_of_mem_iff hincreasing fun e => ?_
  rw [← OrderedMap.find_eq_some, hmem, List.mem_map]
  constructor
  · rintro ⟨ha, hkey⟩
    exact ⟨e.2, ha, by rw [hkey]⟩
  · rintro ⟨a, ha, rfl⟩
    exact ⟨ha, rfl⟩

/-- A list whose keys differ is increasing once it is sorted. -/
lemma increasing_insertionSort (hl : (l.map key).Nodup) :
    (l.insertionSort fun a b => key a ≤ key b).Pairwise fun a b => key a < key b := by
  have htotal : Std.Total fun a b : α => key a ≤ key b := ⟨fun a b => le_total (key a) (key b)⟩
  have htrans : IsTrans α fun a b => key a ≤ key b := ⟨fun _ _ _ => le_trans⟩
  have hsorted := List.pairwise_insertionSort (fun a b => key a ≤ key b) l
  have hnodup : ((l.insertionSort fun a b => key a ≤ key b).map key).Nodup :=
    ((List.perm_insertionSort _ l).map key).nodup_iff.mpr hl
  rw [List.Nodup, List.pairwise_map] at hnodup
  exact hsorted.imp₂ (fun _ _ hle hne => lt_of_le_of_ne hle hne) hnodup

/-- What is left when the item of a key is taken out. -/
lemma mem_eraseP_iff (h : Lists key l m) {k : κ} {a : α} :
    a ∈ l.eraseP (fun b => key b = k) ↔ a ∈ l ∧ key a ≠ k := by
  have hpairwise : l.Pairwise fun a b => key a ≠ key b := h.increasing.imp ne_of_lt
  clear h
  induction l with
  | nil => simp
  | cons b l ih =>
    obtain ⟨hb, hl⟩ := List.pairwise_cons.mp hpairwise
    by_cases hk : key b = k
    · rw [List.eraseP_cons_of_pos (by simpa using hk)]
      constructor
      · intro ha
        exact ⟨List.mem_cons_of_mem b ha, fun heq => hb a ha (hk.trans heq.symm)⟩
      · rintro ⟨ha, hne⟩
        obtain rfl | ha := List.mem_cons.mp ha
        · exact absurd hk hne
        · exact ha
    · rw [List.eraseP_cons_of_neg (by simpa using hk), List.mem_cons, List.mem_cons]
      constructor
      · rintro (rfl | ha)
        · exact ⟨.inl rfl, hk⟩
        · obtain ⟨ha, hne⟩ := (ih hl).mp ha
          exact ⟨.inr ha, hne⟩
      · rintro ⟨rfl | ha, hne⟩
        · exact .inl rfl
        · exact .inr ((ih hl).mpr ⟨ha, hne⟩)

/-- Taking out the item of a key and sorting removes the key. -/
lemma erase (h : Lists key l m) (k : κ) :
    Lists key ((l.eraseP fun b => key b = k).insertionSort fun a b => key a ≤ key b) (m.erase k) := by
  have hnodup : ((l.eraseP fun b => key b = k).map key).Nodup := by
    rw [List.Nodup, List.pairwise_map]
    exact (h.increasing.imp ne_of_lt).sublist List.eraseP_sublist
  refine of_mem_iff (increasing_insertionSort hnodup) fun k' a => ?_
  rw [List.mem_insertionSort, h.mem_eraseP_iff, OrderedMap.find_erase]
  split_ifs with hk
  · constructor
    · exact fun ha => by cases ha
    · rintro ⟨⟨-, hne⟩, rfl⟩
      exact absurd hk.symm hne
  · constructor
    · intro ha
      have hkey := h.key_of_find ha
      exact ⟨⟨h.mem_iff.mpr (hkey ▸ ha), fun heq => hk (heq.symm.trans hkey)⟩, hkey⟩
    · rintro ⟨⟨ha, -⟩, rfl⟩
      exact h.mem_iff.mp ha

/-- Taking out the item of a key, putting another one at the end and sorting is an assignment. -/
lemma insert (h : Lists key l m) (a : α) :
    Lists key ((l.eraseP (fun b => key b = key a) ++ [a]).insertionSort fun a b => key a ≤ key b)
      (m.insert (key a) a) := by
  have hnodup : ((l.eraseP (fun b => key b = key a) ++ [a]).map key).Nodup := by
    rw [List.Nodup, List.pairwise_map, List.pairwise_append]
    refine ⟨(h.increasing.imp ne_of_lt).sublist List.eraseP_sublist, List.pairwise_singleton _ a, ?_⟩
    intro b hb c hc
    rw [List.mem_singleton.mp hc]
    exact (h.mem_eraseP_iff.mp hb).2
  refine of_mem_iff (increasing_insertionSort hnodup) fun k b => ?_
  rw [List.mem_insertionSort, List.mem_append, List.mem_singleton, h.mem_eraseP_iff,
    OrderedMap.find_insert]
  split_ifs with hk
  · constructor
    · intro hb
      obtain rfl := Option.some.inj hb
      exact ⟨.inr rfl, hk⟩
    · rintro ⟨⟨-, hne⟩ | rfl, rfl⟩
      · exact absurd hk.symm hne
      · rfl
  · constructor
    · intro hb
      have hkey := h.key_of_find hb
      exact ⟨.inl ⟨h.mem_iff.mpr (hkey ▸ hb), fun heq => hk (heq.symm.trans hkey)⟩, hkey⟩
    · rintro ⟨⟨hb, -⟩ | rfl, rfl⟩
      · exact h.mem_iff.mp hb
      · exact absurd rfl hk

end Lists

end Ordered
