import EntityQuery.Query.Grammar

/-!
# What the lowering of `LOCATE` computes

`LOCATE(n, h, s)` is the least position from `s` on where `n` occurs in `h`, 1-based, or 0
when there is none. The grammar writes it as a searched CASE over `POSITION`
(`Grammar.locate`): the needle is looked for in the suffix `SUBSTRING(h, s)`, and a position
found there is moved back into `h` by adding `s - 1`.

To say what that expression computes, `Expr.value` evaluates the part of SQL it is made of:
integer literals, `POSITION`, `SUBSTRING`, `+`, `-`, `<=` and `CASE`, each NULL on a NULL
operand; every other expression is a leaf whose value is given. `POSITION(n IN y)` is the
1-based index of the first occurrence of `n` in `y` and 0 when there is none
(`SqlValue.firstIndex`), and `SUBSTRING(y, s)` is the suffix of `y` from its character `s`
on, empty past the end.

An occurrence of `n` in `y` at position `p` splits `y` as `a ++ n ++ b` with `p - 1`
characters in `a` (`OccursAt`), so the empty needle occurs at every position from 1 to
`|y| + 1` and nowhere else. Moving a position found in the suffix back into `h` is right as
long as the suffix starts inside `h` or right after it (`occursAt_drop`), and
`Expr.value_locate` proves the lowering right whenever that holds or the needle is not empty.
With an empty needle and a start past `|h| + 1`, the suffix is empty, `POSITION` finds the
needle at 1 there, and the lowering gives `s` where `LOCATE` gives 0
(`Expr.value_locate_past_end`).
-/

namespace EntityQuery

/-! ### Occurrences of a string in another -/

/-- `n` occurs in `y` at the 1-based position `p`: `y` is `a ++ n ++ b` with `p - 1` characters
in `a`. -/
def OccursAt (n y : List Char) (p : Nat) : Prop :=
  ∃ a b, y = a ++ n ++ b ∧ a.length + 1 = p

/-- `r` is the value of `LOCATE(n, y, s)`: the least position from `s` on where `n` occurs in
`y`, or 0 when it occurs at none. -/
def IsLocate (n y : List Char) (s r : Nat) : Prop :=
  if r = 0 then ∀ p, s ≤ p → ¬ OccursAt n y p
  else s ≤ r ∧ OccursAt n y r ∧ ∀ p, s ≤ p → p < r → ¬ OccursAt n y p

/-- An occurrence is a prefix of the suffix that starts at its position. -/
theorem occursAt_iff {n y : List Char} {p : Nat} :
  OccursAt n y p ↔ 0 < p ∧ p - 1 ≤ y.length ∧ n <+: y.drop (p - 1)
  := by
  constructor
  · rintro ⟨a, b, rfl, rfl⟩
    refine ⟨Nat.succ_pos _, by simp, ?_⟩
    simp only [Nat.add_sub_cancel, List.append_assoc, List.drop_left]
    exact List.prefix_append n b
  · rintro ⟨hp, hle, b, hb⟩
    refine ⟨y.take (p - 1), b, ?_, ?_⟩
    · rw [List.append_assoc, hb, List.take_append_drop]
    · rw [List.length_take, Nat.min_eq_left hle]
      omega

/-- At position 1, `n` occurs when it is a prefix. -/
theorem occursAt_one {n y : List Char} : OccursAt n y 1 ↔ n <+: y := by
  simp [occursAt_iff]

/-- The empty string holds one occurrence, of the empty needle at 1. -/
theorem occursAt_nil {n : List Char} {p : Nat} : OccursAt n [] p ↔ n = [] ∧ p = 1 := by
  rw [occursAt_iff]
  constructor
  · rintro ⟨hp, hle, hn⟩
    exact ⟨List.prefix_nil.mp (by simpa using hn), by simp at hle; omega⟩
  · rintro ⟨rfl, rfl⟩
    simp

/-- The needle ends inside the string. -/
theorem OccursAt.add_length_le {n y : List Char} {p : Nat} (h : OccursAt n y p) :
  p + n.length ≤ y.length + 1
  := by
  obtain ⟨a, b, rfl, rfl⟩ := h
  simp only [List.length_append]
  omega

/-- An occurrence in the suffix from character `k + 1` on is one in the whole string,
`k` positions further, as long as the suffix starts inside the string or right after it. -/
theorem occursAt_drop {n y : List Char} {k p : Nat} (hk : k ≤ y.length) (hp : 0 < p) :
  OccursAt n (y.drop k) p ↔ OccursAt n y (p + k)
  := by
  rw [occursAt_iff, occursAt_iff, List.drop_drop, List.length_drop]
  have hsum : k + (p - 1) = p + k - 1 := by omega
  rw [hsum]
  constructor
  · rintro ⟨-, hle, hn⟩
    exact ⟨by omega, by omega, hn⟩
  · rintro ⟨-, hle, hn⟩
    exact ⟨hp, by omega, hn⟩

/-- An occurrence in `c :: y` after position 1 is one in `y`, one position back. -/
theorem occursAt_cons_succ {n y : List Char} {c : Char} {p : Nat} (hp : 0 < p) :
  OccursAt n (c :: y) (p + 1) ↔ OccursAt n y p
  := (occursAt_drop (y := c :: y) (k := 1) (by simp) hp).symm

/-! ### The values of SQL expressions -/

/-- The value of an SQL expression: NULL, an integer, a string or a truth value. -/
inductive SqlValue where
  | null
  | int (n : Int)
  | str (s : List Char)
  | bool (b : Bool)
  deriving DecidableEq, Repr

namespace SqlValue

/-- The 1-based index of the first occurrence of `n` in `y`, 0 when there is none. -/
def firstIndex (n : List Char) : List Char → Nat
  | [] => if n = [] then 1 else 0
  | c :: y =>
    if n.isPrefixOf (c :: y) then 1
    else
      match firstIndex n y with
      | 0 => 0
      | k + 1 => k + 2

/-- `POSITION(n IN y)`. -/
def position : SqlValue → SqlValue → SqlValue
  | .str n, .str y => .int (firstIndex n y)
  | _, _ => .null

/-- `SUBSTRING(y, s)`: the suffix of `y` from its character `s` on, empty past the end; all
of `y` for a start before the first character. -/
def substring : List SqlValue → SqlValue
  | [.str y, .int s] => .str (y.drop (s - 1).toNat)
  | _ => .null

/-- The arithmetic and comparisons of `LOCATE`'s lowering, over integers. -/
def binary (op : BinOp) : SqlValue → SqlValue → SqlValue
  | .int a, .int b =>
    match op with
    | .add => .int (a + b)
    | .sub => .int (a - b)
    | .le => .bool (decide (a ≤ b))
    | _ => .null
  | _, _ => .null

/-- `POSITION` finds the least position from 1 on where the needle occurs. -/
theorem isLocate_firstIndex (n y : List Char) : IsLocate n y 1 (firstIndex n y) := by
  induction y with
  | nil =>
    by_cases hn : n = []
    · simp only [firstIndex, hn, if_true, IsLocate, Nat.one_ne_zero, if_false, Nat.le_refl,
        true_and]
      exact ⟨occursAt_nil.mpr ⟨rfl, rfl⟩, fun p h1 h2 => by omega⟩
    · simp only [firstIndex, hn, if_false, IsLocate, if_true]
      exact fun p _ h => hn (occursAt_nil.mp h).1
  | cons c y ih =>
    by_cases hpre : n.isPrefixOf (c :: y) = true
    · simp only [firstIndex, hpre, if_true, IsLocate, Nat.one_ne_zero, if_false, Nat.le_refl,
        true_and]
      exact ⟨occursAt_one.mpr (List.isPrefixOf_iff_prefix.mp hpre), fun p h1 h2 => by omega⟩
    · have hone : ¬ OccursAt n (c :: y) 1 := fun h =>
        hpre (List.isPrefixOf_iff_prefix.mpr (occursAt_one.mp h))
      have hshift : ∀ p, 2 ≤ p → (OccursAt n (c :: y) p ↔ OccursAt n y (p - 1)) := by
        intro p hp
        obtain ⟨q, rfl⟩ : ∃ q, p = q + 1 := ⟨p - 1, by omega⟩
        simpa using occursAt_cons_succ (c := c) (n := n) (y := y) (p := q) (by omega)
      simp only [firstIndex, hpre, Bool.false_eq_true, if_false]
      split
      · rename_i h0
        simp only [IsLocate, h0, if_true] at ih
        simp only [IsLocate, if_true]
        intro p hp hocc
        rcases Nat.lt_or_ge p 2 with hlt | hge
        · exact hone (by rwa [show p = 1 by omega] at hocc)
        · exact ih (p - 1) (by omega) ((hshift p hge).mp hocc)
      · rename_i k hk
        simp only [IsLocate, hk, Nat.add_one_ne_zero, if_false] at ih
        obtain ⟨-, hocc, hleast⟩ := ih
        simp only [IsLocate, show k + 2 ≠ 0 by omega, if_false]
        refine ⟨by omega, (hshift (k + 2) (by omega)).mpr hocc, fun p hp hlt h => ?_⟩
        rcases Nat.lt_or_ge p 2 with hlt2 | hge
        · exact hone (by rwa [show p = 1 by omega] at h)
        · exact hleast (p - 1) (by omega) (by omega) ((hshift p hge).mp h)

end SqlValue

namespace Expr

open SqlValue

mutual

/-- The value of an expression whose leaves have the values `leaf` gives: integer literals,
`POSITION`, `SUBSTRING`, `+`, `-`, `<=` and a searched `CASE` are evaluated, and a `CASE`
takes its first branch only when its condition is true. -/
def value (leaf : Expr → SqlValue) : Expr → SqlValue
  | .literal (.integer k) => .int k
  | .null => .null
  | .position n y => SqlValue.position (value leaf n) (value leaf y)
  | .call name args d =>
    if name = "SUBSTRING" then SqlValue.substring (valueAll leaf args) else leaf (.call name args d)
  | .binary op l r => SqlValue.binary op (value leaf l) (value leaf r)
  | .caseWhen c t o => if value leaf c = .bool true then value leaf t else value leaf o
  | e => leaf e

/-- The values of a list of expressions. -/
def valueAll (leaf : Expr → SqlValue) : List Expr → List SqlValue
  | [] => []
  | e :: es => value leaf e :: valueAll leaf es

end

variable {leaf : Expr → SqlValue} {n h s : Expr}

/-- The lowering of `LOCATE(n, h, s)` is a CASE over the position of `n` in the suffix of `h`
from `s` on. -/
theorem value_locate_three :
  value leaf (Grammar.locate [n, h, s]) =
    let found := SqlValue.position (value leaf n) (SqlValue.substring [value leaf h, value leaf s])
    if SqlValue.binary .le found (.int 0) = .bool true then .int 0
    else SqlValue.binary .add found (SqlValue.binary .sub (value leaf s) (.int 1))
  := by
  simp [Grammar.locate, value, valueAll]

/-- The lowering of `LOCATE(n, h)` is a CASE over the position of `n` in `h`. -/
theorem value_locate_two :
  value leaf (Grammar.locate [n, h]) =
    let found := SqlValue.position (value leaf n) (value leaf h)
    if SqlValue.binary .le found (.int 0) = .bool true then .int 0 else found
  := by
  rfl

/-- Moving a position found in the suffix from `s` on back into the string gives the `LOCATE`
value from `s`, when the suffix starts inside the string or right after it, or when the
needle is not empty. -/
theorem isLocate_of_suffix {N H : List Char} {S : Nat} (hS : 1 ≤ S)
    (hreach : N ≠ [] ∨ S ≤ H.length + 1) :
  IsLocate N H S
    (if firstIndex N (H.drop (S - 1)) = 0 then 0 else firstIndex N (H.drop (S - 1)) + (S - 1))
  := by
  have hfound := isLocate_firstIndex N (H.drop (S - 1))
  by_cases hinside : S - 1 ≤ H.length
  · have hback : ∀ p, 0 < p → (OccursAt N (H.drop (S - 1)) p ↔ OccursAt N H (p + (S - 1))) :=
      fun p hp => occursAt_drop hinside hp
    split
    · rename_i h0
      simp only [IsLocate, h0, if_true] at hfound
      simp only [IsLocate, if_true]
      intro p hp hocc
      exact hfound (p - (S - 1)) (by omega)
        ((hback (p - (S - 1)) (by omega)).mpr (by rwa [show p - (S - 1) + (S - 1) = p by omega]))
    · rename_i h0
      simp only [IsLocate, h0, if_false] at hfound
      obtain ⟨h1, hocc, hleast⟩ := hfound
      simp only [IsLocate, show firstIndex N (H.drop (S - 1)) + (S - 1) ≠ 0 by omega, if_false]
      refine ⟨by omega, (hback _ (by omega)).mp hocc, fun p hp hlt hp' => ?_⟩
      exact hleast (p - (S - 1)) (by omega) (by omega)
        ((hback (p - (S - 1)) (by omega)).mpr (by rwa [show p - (S - 1) + (S - 1) = p by omega]))
  · have hN : N ≠ [] := hreach.resolve_right (by omega)
    have hempty : H.drop (S - 1) = [] := List.drop_eq_nil_of_le (by omega)
    have hzero : firstIndex N (H.drop (S - 1)) = 0 := by
      simp [hempty, firstIndex, hN]
    simp only [hzero, if_true, IsLocate]
    intro p hp hocc
    have := hocc.add_length_le
    have : 0 < N.length := List.length_pos_iff.mpr hN
    omega

/-- The lowering of `LOCATE(n, h, s)` computes `LOCATE`: for string values of `n` and `h` and
a start `s ≥ 1`, its value is the least position from `s` on where `n` occurs in `h`, or 0,
whenever the needle is not empty or `s` is at most `|h| + 1`. -/
theorem value_locate {N H : List Char} {S : Nat} (hn : value leaf n = .str N)
    (hh : value leaf h = .str H) (hs : value leaf s = .int S) (hS : 1 ≤ S)
    (hreach : N ≠ [] ∨ S ≤ H.length + 1) :
  ∃ r : Nat, value leaf (Grammar.locate [n, h, s]) = .int r ∧ IsLocate N H S r
  := by
  have htoNat : ((S : Int) - 1).toNat = S - 1 := by omega
  refine ⟨_, ?_, isLocate_of_suffix hS hreach⟩
  rw [value_locate_three]
  simp only [hn, hh, hs, SqlValue.substring, htoNat, SqlValue.position, SqlValue.binary]
  generalize SqlValue.firstIndex N (List.drop (S - 1) H) = k
  split
  · rename_i hle
    have hk : k = 0 := by
      simp only [SqlValue.bool.injEq, decide_eq_true_eq] at hle
      omega
    simp [hk]
  · rename_i hgt
    have hk : k ≠ 0 := by
      simp only [SqlValue.bool.injEq, decide_eq_true_eq] at hgt
      omega
    simp only [hk, if_false, SqlValue.int.injEq]
    omega

/-- The lowering of `LOCATE(n, h)` computes `LOCATE` from the first position. -/
theorem value_locate_from_start {N H : List Char} (hn : value leaf n = .str N)
    (hh : value leaf h = .str H) :
  ∃ r : Nat, value leaf (Grammar.locate [n, h]) = .int r ∧ IsLocate N H 1 r
  := by
  refine ⟨firstIndex N H, ?_, isLocate_firstIndex N H⟩
  rw [value_locate_two]
  simp only [hn, hh, SqlValue.position, SqlValue.binary]
  split <;> simp_all

/-- The lowering of `LOCATE` is NULL when an argument is. A NULL argument makes the position NULL,
so the CASE takes its ELSE branch. -/
theorem value_locate_null (hnull : value leaf n = .null ∨ value leaf h = .null ∨
    value leaf s = .null) :
  value leaf (Grammar.locate [n, h, s]) = .null ∧
    (value leaf n = .null ∨ value leaf h = .null → value leaf (Grammar.locate [n, h]) = .null)
  := by
  have hpos : ∀ x y, (x = .null ∨ y = .null) → SqlValue.position x y = .null := by
    intro x y hxy
    cases x <;> cases y <;> simp_all [SqlValue.position]
  have hsub : ∀ y t, (y = .null ∨ t = .null) → SqlValue.substring [y, t] = .null := by
    intro y t hyt
    cases y <;> cases t <;> simp_all [SqlValue.substring]
  refine ⟨?_, fun h2 => ?_⟩
  · rw [value_locate_three]
    have hfound : SqlValue.position (value leaf n)
        (SqlValue.substring [value leaf h, value leaf s]) = .null := by
      rcases hnull with hn | hh | hs
      · exact hpos _ _ (Or.inl hn)
      · exact hpos _ _ (Or.inr (hsub _ _ (Or.inl hh)))
      · exact hpos _ _ (Or.inr (hsub _ _ (Or.inr hs)))
    simp [hfound, SqlValue.binary]
  · rw [value_locate_two]
    simp [hpos _ _ h2, SqlValue.binary]

/-- With an empty needle and a start past `|h| + 1`, the lowering gives the start where `LOCATE`
gives 0: here `LOCATE('', '', 2)`. The empty needle occurs in the empty string at 1 only. -/
theorem value_locate_past_end :
  value (fun _ => .str [])
      (Grammar.locate [.column default, .column default, .literal (.integer 2)]) = .int 2 ∧
    ¬ IsLocate [] [] 2 2
  := by
  refine ⟨by decide, fun hloc => ?_⟩
  rw [IsLocate, if_neg (by decide)] at hloc
  have hocc : OccursAt [] [] 2 := hloc.2.1
  exact absurd (occursAt_nil.mp hocc).2 (by decide)

end Expr

end EntityQuery
