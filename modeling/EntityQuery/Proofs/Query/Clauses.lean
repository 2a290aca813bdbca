import Mathlib
import EntityQuery.Proofs.Query.Reading
import EntityQuery.Query.Grammar

/-!
# The clauses around expressions keep the reader sound

The parts of the grammar that are not mutually recursive: the FROM clause with its
declarations and paths, the dotted names, the tests and comparisons built around operands, and
the calls of built-in functions. Each keeps a sound reader sound, and each that builds an
expression builds a writable one from writable operands: a path copies no text, `LOCATE` and
`CONCAT` are rewritten into their operands only, and a function's name is plain text.

A match on a value the precondition mentions cannot be split by `mvcgen`; the grammar takes
such matches apart in pure functions (`emptyTest`, `sizeCall`, `objectOf`, `memberValues`)
whose results are read by `orFail`, which the proofs unfold.
-/

open Std.Do

set_option mvcgen.warning false

namespace EntityQuery

open SqlText Reading

namespace Grammar

theorem skipToFrom_spec (fuel depth : Nat) (s₀ : Reader) :
  ⦃fun s => ⌜s.Sound ∧ s₀.params ≤ s.params⌝⦄
  skipToFrom fuel depth
  ⦃⇓? _ s => ⌜s.Sound ∧ s₀.params ≤ s.params⌝⦄
  := by
  induction fuel generalizing depth with
  | zero => mvcgen [skipToFrom]
  | succ n ih => mvcgen [skipToFrom, peek_spec, skip_spec, ih] with grind

theorem dottedRest_spec (fuel : Nat) (name : String) (s₀ : Reader) :
  ⦃fun s => ⌜s.Sound ∧ s₀.params ≤ s.params⌝⦄
  dottedRest fuel name
  ⦃⇓? _ s => ⌜s.Sound ∧ s₀.params ≤ s.params⌝⦄
  := by
  induction fuel generalizing name with
  | zero => mvcgen [dottedRest]
  | succ n ih => mvcgen [dottedRest, eat_spec, fieldName_spec, ih] with grind

theorem constructor_spec (s₀ : Reader) :
  ⦃fun s => ⌜s.Sound ∧ s₀.params ≤ s.params⌝⦄
  constructor
  ⦃⇓? _ s => ⌜s.Sound ∧ s₀.params ≤ s.params⌝⦄
  := by
  mvcgen [constructor, expectIdentifier_spec, dottedRest_spec, budget_spec, fail_spec,
    expect_spec, binder_spec] with grind

theorem entityName_go_spec (fuel : Nat) (name tail : String) (s₀ : Reader) :
  ⦃fun s => ⌜s.Sound ∧ s₀.params ≤ s.params⌝⦄
  entityName.go fuel name tail
  ⦃⇓? _ s => ⌜s.Sound ∧ s₀.params ≤ s.params⌝⦄
  := by
  induction fuel generalizing name tail with
  | zero =>
    mvcgen [entityName.go, fail_spec]
    grind
  | succ n ih =>
    mvcgen [entityName.go, binder_spec, eat_spec, fail_spec, fieldName_spec, ih] with grind

theorem entityName_spec (s₀ : Reader) :
  ⦃fun s => ⌜s.Sound ∧ s₀.params ≤ s.params⌝⦄
  entityName
  ⦃⇓? _ s => ⌜s.Sound ∧ s₀.params ≤ s.params⌝⦄
  := by
  mvcgen [entityName, word_spec, budget_spec, entityName_go_spec] with grind

theorem aliasName_spec (s₀ : Reader) :
  ⦃fun s => ⌜s.Sound ∧ s₀.params ≤ s.params⌝⦄
  aliasName?
  ⦃⇓? _ s => ⌜s.Sound ∧ s₀.params ≤ s.params⌝⦄
  := by
  mvcgen [aliasName?, eatKeyword_spec, expectIdentifier_spec, peek_spec] with grind

theorem bulkTarget_spec (q : QueryId) (s₀ : Reader) :
  ⦃fun s => ⌜s.Sound ∧ s₀.params ≤ s.params⌝⦄
  bulkTarget q
  ⦃⇓? _ s => ⌜s.Sound ∧ s₀.params ≤ s.params⌝⦄
  := by
  mvcgen [bulkTarget, entityName_spec, aliasName_spec, bind_declareRoot_spec] with grind

theorem segments_spec (fuel : Nat) (acc : List String) (s₀ : Reader) :
  ⦃fun s => ⌜s.Sound ∧ s₀.params ≤ s.params⌝⦄
  segments fuel acc
  ⦃⇓? _ s => ⌜s.Sound ∧ s₀.params ≤ s.params⌝⦄
  := by
  induction fuel generalizing acc with
  | zero => mvcgen [segments]
  | succ n ih => mvcgen [segments, eat_spec, fieldName_spec, ih] with grind

theorem fromSource_spec (q : QueryId) (isIn : Bool) (s₀ : Reader) :
  ⦃fun s => ⌜s.Sound ∧ s₀.params ≤ s.params⌝⦄
  fromSource q isIn
  ⦃⇓? _ s => ⌜s.Sound ∧ s₀.params ≤ s.params⌝⦄
  := by
  mvcgen [fromSource, peek_spec, binder_spec, entityName_spec, expectIdentifier_spec, fail_spec,
    segments_spec, budget_spec] with grind

theorem declarePath_spec (q : QueryId) (root : FromId) (segs : List String)
    (aliasName : Option String) (s₀ : Reader) :
  ⦃fun s => ⌜s.Sound ∧ s₀.params ≤ s.params⌝⦄
  declarePath q root segs aliasName
  ⦃⇓? _ s => ⌜s.Sound ∧ s₀.params ≤ s.params⌝⦄
  := by
  mvcgen [declarePath, fail_spec, bind_navigate_spec, bind_generateAlias_spec,
    bind_declarePath_spec, bind_markFetch_spec, binder_spec] invariants
  | inv1 => ⇓? _ s => ⌜s.Sound ∧ s₀.params ≤ s.params⌝
  with grind

/-- Reading a FROM item keeps a reader sound. The alias's triple is taken at the start, so that no
logical variable is left open where the source is matched on, after the alias is read. -/
theorem fromItem_spec (q : QueryId) (s₀ : Reader) :
  ⦃fun s => ⌜s.Sound ∧ s₀.params ≤ s.params⌝⦄
  fromItem q
  ⦃⇓? _ s => ⌜s.Sound ∧ s₀.params ≤ s.params⌝⦄
  := by
  have halias := aliasName_spec s₀
  mvcgen [fromItem, eatKeyword_spec, expect_spec, fromSource_spec, halias, declareSource,
    fail_spec, bind_declareRoot_spec, declarePath_spec] with grind

theorem fromList_spec (q : QueryId) (s₀ : Reader) :
  ⦃fun s => ⌜s.Sound ∧ s₀.params ≤ s.params⌝⦄
  fromList q
  ⦃⇓? _ s => ⌜s.Sound ∧ s₀.params ≤ s.params⌝⦄
  := by
  mvcgen [fromList, clearJoin, budget_spec, fromItem_spec, eat_spec, eatKeyword_spec,
    expectKeyword_spec] invariants
  | inv1 => ⇓? _ s => ⌜s.Sound ∧ s₀.params ≤ s.params⌝
  with grind

/-! ### Paths and operands -/

/-- A step of a path stands for a column, an entity or a collection, and copies no text. -/
theorem writable_toExpr (b : Bound) (n : Nat) : b.toExpr.Writable n := by
  cases b <;> trivial

theorem path_spec (start : Bound) (s₀ : Reader) :
  ⦃fun s => ⌜s.Sound ∧ s₀.params ≤ s.params⌝⦄
  path start
  ⦃⇓? r s => ⌜s.Sound ∧ s₀.params ≤ s.params ∧ r.Writable s.params⌝⦄
  := by
  mvcgen [path, budget_spec, eat_spec, fieldName_spec, current_spec, bind_navigate_spec,
    check_spec, fail_spec] invariants
  | inv1 => ⇓? _ s => ⌜s.Sound ∧ s₀.params ≤ s.params⌝
  with grind [writable_toExpr]

theorem writable_emptyTest {e r : Expr} {negated : Bool} (n : Nat)
    (h : emptyTest e negated = .ok r) :
  r.Writable n
  := by
  unfold emptyTest at h
  split at h <;> cases h
  trivial

theorem isTest_spec (e : Expr) (s₀ : Reader) :
  ⦃fun s => ⌜s.Sound ∧ s₀.params ≤ s.params ∧ e.Writable s.params⌝⦄
  isTest e
  ⦃⇓? r s => ⌜s.Sound ∧ s₀.params ≤ s.params ∧ r.Writable s.params⌝⦄
  := by
  mvcgen [isTest, eatKeyword_spec, next_spec, values_spec, orFail, fail_spec, unexpected]
  with grind [Expr.Writable.mono, Expr.writable_conjunction, Expr.writableAll_iff, Expr.Writable,
    writable_emptyTest]

theorem compare_spec (op : BinOp) (left right : Expr) (s₀ : Reader) :
  ⦃fun s => ⌜s.Sound ∧ s₀.params ≤ s.params ∧ left.Writable s.params ∧
      right.Writable s.params⌝⦄
  compare op left right
  ⦃⇓? r s => ⌜s.Sound ∧ s₀.params ≤ s.params ∧ r.Writable s.params⌝⦄
  := by
  mvcgen [compare, binder_spec, current_spec, fail_spec, scalar_spec]
  with grind [Expr.Writable.mono, Expr.writable_conjunction, Expr.writable_disjunction,
    Expr.writableAll_iff, Expr.Writable]

theorem resultItem_spec (e : Expr) (hasFrom : Bool) (s₀ : Reader) :
  ⦃fun s => ⌜s.Sound ∧ s₀.params ≤ s.params ∧ e.Writable s.params⌝⦄
  resultItem e hasFrom
  ⦃⇓? r s => ⌜s.Sound ∧ s₀.params ≤ s.params ∧ r.Writable s.params⌝⦄
  := by
  mvcgen [resultItem, fail_spec] with grind [Expr.Writable]

/-! ### Function calls -/

/-- Checking the number of arguments of a function keeps a reader sound. The bound is matched on
inside the condition and inside the message, where `mvcgen` does not split, so the check is split
first and the message generalized. -/
theorem checkArity_spec (function : String) (count least : Nat) (most : Option Nat)
    (s₀ : Reader) :
  ⦃fun s => ⌜s.Sound ∧ s₀.params ≤ s.params⌝⦄
  checkArity function count least most
  ⦃⇓? _ s => ⌜s.Sound ∧ s₀.params ≤ s.params⌝⦄
  := by
  unfold checkArity
  dsimp only
  split_ifs
  · generalize Reason.wrongArgumentCount function _ = r
    mvcgen [fail_spec] with grind
  · mvcgen

/-- Arguments taken as single values one after the other stay writable. -/
theorem mapM_scalar_spec (args : List Expr) (s₀ : Reader) :
  ⦃fun s => ⌜s.Sound ∧ s₀.params ≤ s.params ∧ ∀ a ∈ args, a.Writable s.params⌝⦄
  args.mapM scalar
  ⦃⇓? rs s => ⌜s.Sound ∧ s₀.params ≤ s.params ∧ ∀ r ∈ rs, r.Writable s.params⌝⦄
  := by
  induction args generalizing s₀ with
  | nil =>
    simp only [List.mapM_nil]
    mvcgen
  | cons a as ih =>
    simp only [List.mapM_cons]
    mvcgen [scalar_spec, ih] with grind [Expr.Writable.mono]

/-- `LOCATE` rewritten into `CASE` and `POSITION` copies the text of its arguments only. -/
theorem writable_locate {args : List Expr} {n : Nat} (h : ∀ a ∈ args, a.Writable n) :
  (locate args).Writable n
  := by
  have hnth : ∀ k a, (args.drop k).head? = some a → a.Writable n :=
    fun k a ha => h a (List.mem_of_mem_drop (List.mem_of_mem_head? ha))
  have hget : ∀ k, ((args.drop k).head?.getD .null).Writable n := by
    intro k
    cases ha : (args.drop k).head? with
    | none => trivial
    | some a => exact hnth k a ha
  have hneedle : (args.head?.getD .null).Writable n := hget 0
  have hsubstring : PlainText "SUBSTRING" := by decide
  unfold locate
  cases hs : (args.drop 2).head? with
  | none => simp only [Expr.Writable, hneedle, hget 1, and_self]
  | some s =>
    simp only [Expr.Writable, Expr.WritableAll, hneedle, hget 1, hnth 2 s hs, hsubstring,
      and_self]

/-- `CONCAT` rewritten into a chain of `||` copies the text of its arguments only. -/
theorem writable_foldl_concat {n : Nat} :
    ∀ (rest : List Expr) (first : Expr), first.Writable n → (∀ a ∈ rest, a.Writable n) →
      (rest.foldl Expr.concat first).Writable n
  | [], _, hf, _ => hf
  | a :: rest, first, hf, hr =>
    writable_foldl_concat rest (.concat first a) ⟨hf, hr a (List.mem_cons_self ..)⟩
      fun b hb => hr b (List.mem_cons_of_mem a hb)

theorem writable_sizeCall {args : List Expr} {r : Expr} (n : Nat) (h : sizeCall args = .ok r) :
  r.Writable n
  := by
  unfold sizeCall at h
  split at h <;> cases h
  trivial

theorem buildFunction_spec (name : String) (args : List Expr) (distinct : Bool) (s₀ : Reader) :
  ⦃fun s => ⌜s.Sound ∧ s₀.params ≤ s.params ∧ PlainText name ∧
      ∀ a ∈ args, a.Writable s.params⌝⦄
  buildFunction name args distinct
  ⦃⇓? r s => ⌜s.Sound ∧ s₀.params ≤ s.params ∧ r.Writable s.params⌝⦄
  := by
  mvcgen [buildFunction, checkArity_spec, orFail, fail_spec, mapM_scalar_spec] with
  | vc31 _ _ _ _ _ _ _ _ h₂ =>
    refine ⟨h₂.1, by grind, ?_⟩
    split
    · exact writable_foldl_concat _ _ (h₂.2.2 _ (List.mem_cons_self ..))
        fun a ha => h₂.2.2 a (List.mem_cons_of_mem _ ha)
    · trivial
  all_goals grind [Expr.Writable.mono, Expr.Writable, Expr.writableAll_iff, writable_sizeCall,
    writable_locate]

end Grammar

end EntityQuery
