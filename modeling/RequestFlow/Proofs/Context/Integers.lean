import Mathlib.Algebra.Group.Int.Defs
import RequestFlow.Context
import RequestFlow.Proofs.Json.Literal

/-!
# Integers in a context

An integer gets into a context as a number, from a JSON body or from an application, or as text,
from the path or the query. Either way it is read back from its decimal digits: a JSON number is
printed for that. So it reads as the same integer for every type that holds it, and as nothing for
the others (`IntType.read?_toString`), as long as JSON has room for the number.
-/

namespace RequestFlow

/-! ### Reading back what was written in digits -/

/-- Where a function has a value on every element, so it has on the list. -/
theorem mapM_eq_filterMap {α β : Type} {f : α → Option β} {l : List α}
    (total : ∀ a ∈ l, ∃ b, f a = some b) : l.mapM f = some (l.filterMap f) := by
  induction l with
  | nil => rfl
  | cons a rest ih =>
      obtain ⟨b, value⟩ := total a List.mem_cons_self
      have further := ih fun c mem => total c (List.mem_cons_of_mem a mem)
      simp [value, further]

theorem readNat?_toDigits (m : Nat) : readNat? (Nat.toDigits 10 m) = some m := by
  have digits : (Nat.toDigits 10 m).mapM (digit? 10) = some (decimal m) :=
    mapM_eq_filterMap digit?_of_mem_toDigits
  rw [readNat?, if_neg (by simp [Nat.toDigits_ne_nil]), digits, Option.map_some, ofDigits_decimal]

/-- A minus sign is no digit. -/
theorem readNat?_minus (s : List Char) : readNat? ('-' :: s) = none := by
  have sign : digit? 10 '-' = none := by decide
  simp [readNat?, sign]

namespace IntType

/-- The integers of a type, as its width and its sign bit allow. -/
def Contains (t : IntType) (n : Int) : Prop :=
  if t.signed then -2 ^ (t.width - 1) ≤ n ∧ n < 2 ^ (t.width - 1) else 0 ≤ n ∧ n < 2 ^ t.width

theorem holds_iff {t : IntType} {n : Int} : t.holds n = true ↔ t.Contains n := by
  rw [holds, least, bound, Contains]
  cases t.signed <;> simp

/-- Only types with a sign contain negative integers. -/
theorem Contains.nonneg {t : IntType} {n : Int} (contains : t.Contains n)
    (unsigned : t.signed = false) : 0 ≤ n := by
  rw [Contains, unsigned] at contains
  exact contains.1

theorem splitSign_toDigits (t : IntType) (m : Nat) :
    t.splitSign (Nat.toDigits 10 m) = (false, Nat.toDigits 10 m) := by
  obtain ⟨c, cs, digits⟩ := List.exists_cons_of_ne_nil (Nat.toDigits_ne_nil (n := m) (b := 10))
  obtain ⟨d, digit⟩ := digit?_of_mem_toDigits (n := m) c (digits ▸ List.mem_cons_self)
  have plus : c ≠ '+' := ne_of_digit? digit (by decide)
  have minus : c ≠ '-' := ne_of_digit? digit (by decide)
  rw [digits, splitSign.eq_def]
  split
  next eq => exact absurd (List.cons.inj eq).1 plus
  next eq => exact absurd (List.cons.inj eq).1 minus
  next => rfl

/-- The decimal digits of an integer are read as this integer by the types that contain it, and by
no others. -/
theorem read?_toString {t : IntType} {n m : Int} :
    t.read? (toString n).toList = some m ↔ m = n ∧ t.Contains n := by
  have agrees (value : Int) :
      (if t.holds value then some value else none) = some m ↔ m = value ∧ t.Contains value := by
    rw [← holds_iff, Option.ite_none_right_eq_some, Option.some.injEq, and_comm, eq_comm]
  cases n with
  | ofNat k =>
      have digits : (toString (Int.ofNat k)).toList = Nat.toDigits 10 k := Nat.toList_repr
      rw [read?, digits, splitSign_toDigits]
      simp only [readNat?_toDigits]
      exact agrees k
  | negSucc k =>
      have digits : (toString (Int.negSucc k)).toList = '-' :: Nat.toDigits 10 (k + 1) :=
        Json.Number.text_negSucc k
      rw [read?, digits]
      cases signed : t.signed with
      | true =>
          simp only [splitSign, signed, ↓reduceIte, readNat?_toDigits]
          exact agrees (Int.negSucc k)
      | false =>
          simp only [splitSign, signed, Bool.false_eq_true, ↓reduceIte, readNat?_minus]
          constructor
          · intro read
            cases read
          · rintro ⟨_, contains⟩
            exact absurd (contains.nonneg signed) (by omega)

/-- The word for an absent value is no integer of any type. -/
theorem read?_null (t : IntType) : t.read? Json.null.chars = none := by
  cases signed : t.signed <;> rfl

end IntType

/-! ### Integers under a key -/

theorem isWord_iff {n : Int} : isWord n = true ↔ -2 ^ 63 ≤ n ∧ n < 2 ^ 64 := by
  simp [isWord]

namespace Context

variable {c : Context} {key : String} {n : Int}

/-- A key under which an integer can be read: the types that contain the integer read it, and no
others read anything. -/
def ReadsAs (c : Context) (key : String) (n : Int) : Prop :=
  ∀ (t : IntType) (m : Int), c.paramAs? t.read? key = some m ↔ m = n ∧ t.Contains n

theorem readsAs_of_readable {v : Json} (held : c.get? key = some v)
    (digits : readableChars v = (toString n).toList) : c.ReadsAs key n := by
  intro t m
  rw [paramAs?, held, Option.bind_some, digits]
  exact IntType.read?_toString

/-- Two keys under which one integer can be read are not told apart by reading integers. -/
theorem ReadsAs.paramAs?_eq {d : Context} {key' : String} (here : c.ReadsAs key n)
    (there : d.ReadsAs key' n) (t : IntType) :
    c.paramAs? t.read? key = d.paramAs? t.read? key' :=
  Option.ext fun m => (here t m).trans (there t m).symm

theorem readsAs_put_int (word : isWord n = true) : (c.put key (.int n)).ReadsAs key n :=
  readsAs_of_readable (v := .number (.int n)) (by simp [Payload.jsonOrNull, Payload.json?_int word])
    rfl

theorem readsAs_put_text (c : Context) (key : String) (n : Int) :
    (c.put key (.json (.string (toString n)))).ReadsAs key n :=
  readsAs_of_readable (v := .string (toString n)) (by simp) rfl

theorem readsAs_ofParams {params : List (String × String)}
    (last : params.reverse.lookup key = some (toString n)) : (ofParams params).ReadsAs key n :=
  readsAs_of_readable (v := .string (toString n)) (by rw [get?_ofParams, last]; rfl) rfl

/-- What is read under a key depends on the value there alone. -/
theorem paramAs?_congr {α : Type} {d : Context} (same : c.get? key = d.get? key)
    (read : List Char → Option α) : c.paramAs? read key = d.paramAs? read key := by
  rw [paramAs?, paramAs?, same]

end Context

/-- An integer that JSON has room for reads the same whether it was stored as a number or as text,
in a context of any kind: the integer types that contain it read it, and no others read anything.
One that is too large for a number is stored as null, under which no type reads anything, while its
text still reads as before. Whatever is stored, the other keys read as they did. -/
theorem integers_read_alike (c : Context) (key : String) (n : Int) :
    let number := c.put key (.int n)
    let text := c.put key (.json (.string (toString n)))
    text.ReadsAs key n ∧
    (∀ params : List (String × String), params.reverse.lookup key = some (toString n) →
      (Context.ofParams params).ReadsAs key n) ∧
    (-2 ^ 63 ≤ n ∧ n < 2 ^ 64 → number.ReadsAs key n ∧
      ∀ t : IntType, number.paramAs? t.read? key = text.paramAs? t.read? key) ∧
    (¬ (-2 ^ 63 ≤ n ∧ n < 2 ^ 64) → number.get? key = some .null ∧
      ∀ t : IntType, number.paramAs? t.read? key = none) ∧
    ∀ (stored : Payload) (other : String), other ≠ key →
      (c.put key stored).get? other = c.get? other ∧
      ∀ (α : Type) (read : List Char → Option α),
        (c.put key stored).paramAs? read other = c.paramAs? read other := by
  intro number text
  have inText : text.ReadsAs key n := Context.readsAs_put_text c key n
  refine ⟨inText, fun params last => Context.readsAs_ofParams last, fun fits => ?_,
    fun large => ?_, fun stored other differs => ?_⟩
  · have inNumber : number.ReadsAs key n := Context.readsAs_put_int (isWord_iff.2 fits)
    exact ⟨inNumber, inNumber.paramAs?_eq inText⟩
  · have null : number.get? key = some .null := by
      have tooLarge : isWord n = false := Bool.eq_false_iff.2 fun word => large (isWord_iff.1 word)
      simp [number, Payload.jsonOrNull_int_of_not_word tooLarge]
    refine ⟨null, fun t => ?_⟩
    rw [Context.paramAs?, null, Option.bind_some]
    exact t.read?_null
  · have same : (c.put key stored).get? other = c.get? other := by
      rw [Context.get?_put, if_neg differs]
    exact ⟨same, fun _ read => Context.paramAs?_congr same read⟩

/-- At the upper ends: the greatest number that JSON has room for is read by the unsigned 64-bit
type and not by the signed one, and the next integer is read from its text alone. -/
theorem integers_read_alike_at_limit :
    let unsigned : IntType := ⟨false, 64⟩
    let signed : IntType := ⟨true, 64⟩
    let wide : IntType := ⟨false, 128⟩
    let c : Context := ∅
    (c.put "n" (.int (2 ^ 64 - 1))).paramAs? unsigned.read? "n" = some (2 ^ 64 - 1) ∧
    (c.put "n" (.int (2 ^ 64 - 1))).paramAs? signed.read? "n" = none ∧
    (c.put "n" (.int (2 ^ 64))).paramAs? wide.read? "n" = none ∧
    (Context.ofParams [("n", toString (2 ^ 64 : Int))]).paramAs? wide.read? "n" =
      some (2 ^ 64) ∧
    (c.put "n" (.int (2 ^ 64))).get? "m" = none := by
  intro unsigned signed wide c
  obtain ⟨_, _, fits, _, _⟩ := integers_read_alike c "n" (2 ^ 64 - 1)
  obtain ⟨_, params, _, large, others⟩ := integers_read_alike c "n" (2 ^ 64)
  have reads := (fits (by decide)).1
  refine ⟨(reads unsigned _).2 ⟨rfl, ?_⟩, Option.eq_none_iff_forall_ne_some.2 fun m read => ?_,
    (large (by decide)).2 wide, (params _ ?_ wide _).2 ⟨rfl, ?_⟩,
    (others (.int (2 ^ 64)) "m" (by decide)).1⟩
  · simp [unsigned, IntType.Contains]
  · have contains := ((reads signed m).1 read).2
    simp [signed, IntType.Contains] at contains
  · simp
  · simp [wide, IntType.Contains]

end RequestFlow
