import Liangshi.Ordered.OrderedMap
import Mathlib.Data.Set.Basic

/-!
# Copies kept up to date by checksums

A copy of a collection of named contents comes with a record of their sums.  A newer record tells which
of them are outdated; what is fetched is laid over the copy.  The copy is accurate again exactly when
what was laid over it has the sums of the new record.
-/

namespace Ordered

/-! ## Assigning many entries -/

namespace OrderedMap

variable {κ ν : Type} [LinearOrder κ]

/-- Assign entries one after the other. -/
def insertAll (m : OrderedMap κ ν) (entries : List (κ × ν)) : OrderedMap κ ν :=
  entries.foldl (fun m e => m.insert e.1 e.2) m

/-- The first entry of a key in a list and another one behind it. -/
lemma findEntry_append (k : κ) (first others : List (κ × ν)) :
    findEntry k (first ++ others) = (findEntry k first).or (findEntry k others) := by
  induction first with
  | nil => rfl
  | cons e first ih =>
    rw [List.cons_append, findEntry, findEntry, ih]
    split_ifs <;> rfl

/-- With different keys, lookup finds exactly the entries. -/
lemma findEntry_eq_some_of_nodup {k : κ} {v : ν} {l : List (κ × ν)} (h : (l.map Prod.fst).Nodup) :
    findEntry k l = some v ↔ (k, v) ∈ l := by
  induction l with
  | nil => simp [findEntry]
  | cons e l ih =>
    obtain ⟨he, hl⟩ := List.nodup_cons.mp h
    rw [findEntry]
    split_ifs with hk
    · subst hk
      have hout : (e.1, v) ∉ l := fun hmem => he (List.mem_map.mpr ⟨_, hmem, rfl⟩)
      rw [List.mem_cons, or_iff_left hout, Option.some_inj, Prod.ext_iff]
      exact ⟨fun hv => ⟨rfl, hv.symm⟩, fun hv => hv.2.symm⟩
    · rw [ih hl, List.mem_cons, or_iff_right]
      rintro rfl
      exact hk rfl

/-- With different keys, the order of the entries does not matter. -/
lemma findEntry_reverse {k : κ} {l : List (κ × ν)} (h : (l.map Prod.fst).Nodup) :
    findEntry k l.reverse = findEntry k l := by
  have hreverse : (l.reverse.map Prod.fst).Nodup := by
    rw [List.map_reverse]
    exact List.nodup_reverse.mpr h
  refine Option.ext fun v => ?_
  rw [findEntry_eq_some_of_nodup hreverse, findEntry_eq_some_of_nodup h, List.mem_reverse]

/-- The last entry of a key counts. -/
lemma find_insertAll (m : OrderedMap κ ν) (entries : List (κ × ν)) (k : κ) :
    (m.insertAll entries).find k = (findEntry k entries.reverse).or (m.find k) := by
  induction entries generalizing m with
  | nil => rfl
  | cons e entries ih =>
    have hfirst : (m.insert e.1 e.2).find k = (findEntry k [e]).or (m.find k) := by
      rw [find_insert, findEntry]
      split_ifs <;> rfl
    calc (m.insertAll (e :: entries)).find k
        = (findEntry k entries.reverse).or ((m.insert e.1 e.2).find k) := ih (m.insert e.1 e.2)
      _ = (findEntry k (e :: entries).reverse).or (m.find k) := by
          rw [hfirst, List.reverse_cons, findEntry_append, Option.or_assoc]

/-- The keys of a map are different. -/
lemma nodup_keys (m : OrderedMap κ ν) : (m.entries.map Prod.fst).Nodup := by
  rw [List.Nodup, List.pairwise_map]
  exact m.increasing.imp ne_of_lt

/-- A map laid over another. -/
lemma find_insertAll_entries (m p : OrderedMap κ ν) (k : κ) :
    (m.insertAll p.entries).find k = (p.find k).or (m.find k) := by
  rw [find_insertAll, findEntry_reverse p.nodup_keys]
  rfl

end OrderedMap

/-! ## Accurate copies -/

section Mirror

variable {Name Content Sum : Type} {names : Set Name} {sum : Content → Sum}
  {files patch : Name → Option Content} {old new : Name → Option Sum}

/-- The contents of a copy have the sums of a record, as far as it names them. -/
def Accurate (names : Set Name) (sum : Content → Sum) (files : Name → Option Content)
    (record : Name → Option Sum) : Prop :=
  ∀ name ∈ names, ∀ s, record name = some s → (files name).map sum = some s

/-- A name whose sum is not the one of an old record. -/
def Outdated (old new : Name → Option Sum) (name : Name) : Prop := new name ≠ none ∧ old name ≠ new name

/-- Contents laid over a copy. -/
def laidOver (patch files : Name → Option Content) (name : Name) : Option Content :=
  (patch name).or (files name)

/-- What is laid over a copy agrees with a record. -/
def Agrees (names : Set Name) (sum : Content → Sum) (patch : Name → Option Content)
    (record : Name → Option Sum) : Prop :=
  ∀ name ∈ names, ∀ s content, record name = some s → patch name = some content → sum content = s

/-- An accurate copy is accurate again, with all that is outdated laid over it, exactly when what is
laid over it agrees with the new record. -/
lemma Accurate.laidOver_iff (h : Accurate names sum files old)
    (hpatch : ∀ name ∈ names, Outdated old new name → (patch name).isSome) :
    Accurate names sum (laidOver patch files) new ↔ Agrees names sum patch new := by
  constructor
  · intro hnew name hname s content hs hcontent
    have hsum := hnew name hname s hs
    rw [laidOver, hcontent, Option.some_or, Option.map_some] at hsum
    exact Option.some.inj hsum
  · intro hagrees name hname s hs
    rw [laidOver]
    cases hcontent : patch name with
    | some content =>
      rw [Option.some_or, Option.map_some, hagrees name hname s content hs hcontent]
    | none =>
      -- What is not laid over the copy is not outdated, and has its old sum.
      have hold : old name = some s := by
        by_contra hne
        have houtdated : Outdated old new name := ⟨by rw [hs]; simp, by rwa [hs]⟩
        have hsome := hpatch name hname houtdated
        rw [hcontent] at hsome
        cases hsome
      rw [Option.none_or]
      exact h name hname s hold

/-- The sums of an original tell its contents from those of a copy. -/
def TellsApart (sum : Content → Sum) (original files : Name → Option Content) : Prop :=
  ∀ name content content', original name = some content → files name = some content' →
    sum content' = sum content → content' = content

end Mirror

end Ordered
