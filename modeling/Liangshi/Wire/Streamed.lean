import Liangshi.Wire.BigEndian

/-!
# Values in a stream of bytes

A type is streamed when its values can be written to bytes and read back from the front of a stream,
whatever follows.  Numbers of a width are streamed, pairs and records one part after the other, and lists
behind their number of items.  Not every value can be written: a list may have more items than its
counter counts.
-/

namespace Wire

variable {α β : Type}

/-- Writing values, and reading them back from the front of a stream. -/
structure Streamed (α : Type) where
  put : α → Bytes
  get : Bytes → Option (α × Bytes)
  Fits : α → Prop
  get_put : ∀ {a : α} (rest : Bytes), Fits a → get (put a ++ rest) = some (a, rest)

namespace Streamed

/-- A number of a width, most significant byte first. -/
def number (width : Nat) : Streamed Nat where
  put n := bigEndian width n
  get bytes :=
    if bytes.length < width then none
    else some (ofBigEndian (bytes.take width), bytes.drop width)
  Fits n := n < 256 ^ width
  get_put {n} rest h := by
    have htake : (bigEndian width n ++ rest).take width = bigEndian width n :=
      List.take_left' (length_bigEndian width n)
    have hdrop : (bigEndian width n ++ rest).drop width = rest :=
      List.drop_left' (length_bigEndian width n)
    rw [if_neg (by simp), htake, hdrop, ofBigEndian_bigEndian h]

/-- One value after the other. -/
def pair (s : Streamed α) (t : Streamed β) : Streamed (α × β) where
  put p := s.put p.1 ++ t.put p.2
  get bytes := do
    let (a, bytes) ← s.get bytes
    let (b, bytes) ← t.get bytes
    return ((a, b), bytes)
  Fits p := s.Fits p.1 ∧ t.Fits p.2
  get_put {p} rest h := by
    obtain ⟨a, b⟩ := p
    rw [List.append_assoc, s.get_put _ h.1]
    dsimp only [Option.bind_eq_bind, Option.bind_some]
    rw [t.get_put _ h.2]
    rfl

/-- A value written as another one that it can be had from. -/
def via (s : Streamed β) (f : α → β) (g : β → Option α) (hg : ∀ a, g (f a) = some a) : Streamed α where
  put a := s.put (f a)
  get bytes := do
    let (b, bytes) ← s.get bytes
    return (← g b, bytes)
  Fits a := s.Fits (f a)
  get_put {a} rest h := by
    rw [s.get_put rest h]
    dsimp only [Option.bind_eq_bind, Option.bind_some]
    rw [hg a]
    rfl

/-- Read a number of values. -/
def getMany (s : Streamed α) : Nat → Bytes → Option (List α × Bytes)
  | 0, bytes => some ([], bytes)
  | count + 1, bytes => do
    let (a, bytes) ← s.get bytes
    let (l, bytes) ← s.getMany count bytes
    return (a :: l, bytes)

/-- Values written one after the other are read back. -/
lemma getMany_flatMap (s : Streamed α) {l : List α} (h : ∀ a ∈ l, s.Fits a) (rest : Bytes) :
    s.getMany l.length (l.flatMap s.put ++ rest) = some (l, rest) := by
  induction l with
  | nil => rfl
  | cons a l ih =>
    rw [List.length_cons, getMany, List.flatMap_cons, List.append_assoc, s.get_put _ (h a List.mem_cons_self)]
    dsimp only [Option.bind_eq_bind, Option.bind_some]
    rw [ih fun b hb => h b (List.mem_cons_of_mem a hb)]
    rfl

/-- A list behind its number of items. -/
def counted (width : Nat) (s : Streamed α) : Streamed (List α) where
  put l := bigEndian width l.length ++ l.flatMap s.put
  get bytes := do
    let (count, bytes) ← (number width).get bytes
    s.getMany count bytes
  Fits l := l.length < 256 ^ width ∧ ∀ a ∈ l, s.Fits a
  get_put {l} rest h := by
    rw [List.append_assoc]
    have hcount := (number width).get_put (l.flatMap s.put ++ rest) h.1
    rw [show (number width).put l.length = bigEndian width l.length from rfl] at hcount
    rw [hcount]
    exact s.getMany_flatMap h.2 rest

end Streamed

end Wire
