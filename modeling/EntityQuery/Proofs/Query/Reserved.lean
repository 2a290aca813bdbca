import Mathlib
import EntityQuery.Proofs.Query.Aliases
import EntityQuery.Proofs.Query.Registering
import EntityQuery.Proofs.Compiled.Bindings

/-!
# Reading keeps the names of its text reserved

A text is read with a binder that reserves the identifiers of the text, lower-cased, when the
text scans, and no name when it does not. Reading never changes the reserved names or the
prefix of generated aliases, and never moves the counter of generated aliases back: every step
of binding keeps them (`Binding.KeepsNames`), and nothing else the reader does touches them.
Each step of reading keeps `ReadsOn s₀ s` from the reader `s₀` it starts from, together with
`Reader.OnText`, so that a statement read to its end has scanned its text to its end: a text that
compiles scans without failure (`Scanner.OnText.scanText_ok`), and its identifiers are reserved.

The functions of the grammar keep all this at once, by induction on the nesting they may still
use (`Grammar.Reserving`), as for soundness. `compile_generatedAliases_fresh` concludes: for
every text that compiles, every alias generated while it is read differs, ignoring ASCII case,
from every identifier of the text, from the alias of every item there is when it is generated,
and from every alias generated before it.
-/

open Std.Do

set_option mvcgen.warning false

namespace EntityQuery

open Reading

/-! ### A text scanned to its end -/

namespace Scanner

/-- The failure of the one scan of `q` seen from a scanner on it: the failure of the scan still
to come, with fuel enough to reach the end; or there is none, and the scan has found the end. -/
theorem OnText.failure_ahead {q : String} {s : Scanner} (h : s.OnText q) :
  (∃ f, s.rest.length < f ∧ (lexemes f s).2 = (scanText q).2) ∨
    (s.next = .ok (.eof, s) ∧ (scanText q).2 = none)
  := by
  induction h with
  | refl =>
    left
    refine ⟨q.length + 1, ?_, rfl⟩
    simp [ofString, String.length_toList]
  | @tail s s' _ hstep ih =>
    obtain ⟨t, hnext⟩ := hstep
    rcases ih with ⟨f, hf, heq⟩ | ⟨heof, hnone⟩
    · cases f with
      | zero => omega
      | succ f =>
        obtain ⟨n, htok, rfl⟩ := next_eq_ok hnext
        simp only [lexemes, hnext] at heq
        by_cases ht : t = .eof
        · subst ht
          obtain ⟨hnil, rfl⟩ := Scan.eq_nil_of_token_eof htok
          right
          exact ⟨next_at_end (by simp [hnil]) (by simp), by simpa using heq.symm⟩
        · left
          have hne : s.rest.drop (Scan.gapLength s.rest) ≠ [] := fun hnil =>
            ht (by rw [hnil] at htok; cases htok; rfl)
          have hpos := Scan.token_length_pos htok hne
          have hlen : 0 < (s.rest.drop (Scan.gapLength s.rest)).length :=
            List.length_pos_iff.mpr hne
          refine ⟨f, ?_, ?_⟩
          · simp only [List.length_drop] at hlen ⊢
            omega
          · simpa [ht] using heq
    · rw [heof] at hnext
      simp only [Except.ok.injEq, Prod.mk.injEq] at hnext
      obtain ⟨rfl, rfl⟩ := hnext
      exact .inr ⟨heof, hnone⟩

/-- A scanner on `q` that finds the end of the text shows that `q` scans without failure. -/
theorem OnText.scanText_ok {q : String} {s s' : Scanner} (h : s.OnText q)
    (hnext : s.next = .ok (.eof, s')) :
  (scanText q).2 = none
  := by
  rcases h.failure_ahead with ⟨f, hf, heq⟩ | ⟨-, hnone⟩
  · cases f with
    | zero => omega
    | succ f =>
      rw [← heq]
      simp [lexemes, hnext]
  · exact hnone

end Scanner

/-- A text that a reader has scanned up to its end, the end being the token it looked ahead at,
scans without failure. -/
theorem tokenize_ok_of_onText {s : Reader} (h : s.OnText) (heof : s.pending = some .eof) :
  ∃ ts, tokenize s.text = .ok ts
  := by
  obtain ⟨prev, hprev, hnext⟩ := h.2 .eof heof
  have hnone := hprev.scanText_ok hnext
  unfold tokenize
  rcases hscan : scanText s.text with ⟨ls, _ | e⟩
  · exact ⟨_, rfl⟩
  · rw [hscan] at hnone
    cases hnone

/-! ### Reading on -/

/-- From `s₀` the reader has read on in the text of `s₀`, having scanned it from its start, and
its binder has kept the names it reserves and the prefix of its aliases, with a counter that
has not gone back. -/
def ReadsOn (s₀ s : Reader) : Prop :=
  s.OnText ∧ s.text = s₀.text ∧ s₀.binder.Continues s.binder

@[grind =]
theorem readsOn_iff (s₀ s : Reader) :
  ReadsOn s₀ s ↔ s.OnText ∧ s.text = s₀.text ∧ s₀.binder.Continues s.binder
  := Iff.rfl

/-- A mark that a reader reading on from `s₀` may go back to: taken on the text of `s₀`, with
its token looked ahead at scanned there. -/
def MarkOn (s₀ : Reader) (m : Mark) : Prop :=
  m.OnText ∧ m.scanner.query = s₀.text

@[grind =]
theorem markOn_iff (s₀ : Reader) (m : Mark) :
  MarkOn s₀ m ↔ m.OnText ∧ m.scanner.query = s₀.text
  := Iff.rfl

namespace Reading

variable (s₀ : Reader)

/-! ### Tokens -/

/-- The token looked at is kept as the one looked ahead at. -/
theorem peek_readsOn :
  ⦃fun s => ⌜ReadsOn s₀ s⌝⦄
  peek
  ⦃⇓? t s => ⌜ReadsOn s₀ s ∧ s.pending = some t⌝⦄
  := by
  mvcgen [peek, scan] with
  | vc2 hs hnone t sc hnext st =>
    obtain ⟨hon, ⟨⟨htext, -, -⟩, -, -⟩, -⟩ := hs.1.peeked hnone hnext st.2 rfl rfl rfl
    exact ⟨⟨hon, by grind⟩, rfl⟩

theorem next_readsOn :
  ⦃fun s => ⌜ReadsOn s₀ s⌝⦄ next ⦃⇓? _ s => ⌜ReadsOn s₀ s⌝⦄
  := by
  mvcgen [next, scan] with
  | vc1 hs _ t hpending _ st =>
    obtain ⟨hon, ⟨⟨htext, -, -⟩, -, -⟩, -⟩ := hs.1.taken hpending st.2 rfl rfl rfl
    exact ⟨hon, by grind⟩
  | vc2 hs _ hnone t sc hnext st =>
    obtain ⟨hon, ⟨⟨htext, -, -⟩, -, -⟩, -⟩ := hs.1.scanned hnone hnext st.2 rfl hnone rfl
    exact ⟨hon, by grind⟩

/- Each triple is a spec for `mvcgen` from the first proof that builds on it, which then starts
once the triple is checked. -/
attribute [local spec] peek_readsOn next_readsOn

theorem skip_readsOn :
  ⦃fun s => ⌜ReadsOn s₀ s⌝⦄ skip ⦃⇓? _ s => ⌜ReadsOn s₀ s⌝⦄
  := by
  mvcgen [skip] with grind

theorem check_readsOn (t : Token) :
  ⦃fun s => ⌜ReadsOn s₀ s⌝⦄ check t ⦃⇓? _ s => ⌜ReadsOn s₀ s⌝⦄
  := by
  mvcgen [check] with grind

theorem checkKeyword_readsOn (k : Keyword) :
  ⦃fun s => ⌜ReadsOn s₀ s⌝⦄ checkKeyword k ⦃⇓? _ s => ⌜ReadsOn s₀ s⌝⦄
  := by
  mvcgen [checkKeyword] with grind

attribute [local spec] skip_readsOn check_readsOn checkKeyword_readsOn

theorem eat_readsOn (t : Token) :
  ⦃fun s => ⌜ReadsOn s₀ s⌝⦄ eat t ⦃⇓? _ s => ⌜ReadsOn s₀ s⌝⦄
  := by
  mvcgen [eat] with grind

theorem eatKeyword_readsOn (k : Keyword) :
  ⦃fun s => ⌜ReadsOn s₀ s⌝⦄ eatKeyword k ⦃⇓? _ s => ⌜ReadsOn s₀ s⌝⦄
  := by
  mvcgen [eatKeyword] with grind

theorem expect_readsOn (t : Token) :
  ⦃fun s => ⌜ReadsOn s₀ s⌝⦄ expect t ⦃⇓? _ s => ⌜ReadsOn s₀ s⌝⦄
  := by
  mvcgen [expect, unexpected, fail_spec] with grind

theorem expectKeyword_readsOn (k : Keyword) :
  ⦃fun s => ⌜ReadsOn s₀ s⌝⦄ expectKeyword k ⦃⇓? _ s => ⌜ReadsOn s₀ s⌝⦄
  := by
  mvcgen [expectKeyword, unexpected, fail_spec] with grind

theorem expectIdentifier_readsOn :
  ⦃fun s => ⌜ReadsOn s₀ s⌝⦄ expectIdentifier ⦃⇓? _ s => ⌜ReadsOn s₀ s⌝⦄
  := by
  mvcgen [expectIdentifier, unexpected, fail_spec] with grind

theorem word_readsOn (expected : String) :
  ⦃fun s => ⌜ReadsOn s₀ s⌝⦄ word expected ⦃⇓? _ s => ⌜ReadsOn s₀ s⌝⦄
  := by
  mvcgen [word, unexpected, fail_spec] with grind

attribute [local spec] eat_readsOn eatKeyword_readsOn expect_readsOn expectKeyword_readsOn
  expectIdentifier_readsOn word_readsOn

theorem fieldName_readsOn :
  ⦃fun s => ⌜ReadsOn s₀ s⌝⦄ fieldName ⦃⇓? _ s => ⌜ReadsOn s₀ s⌝⦄
  := by
  mvcgen [fieldName]

/-- Where `expectEnd` succeeds, the token looked ahead at is the end of the text. -/
theorem expectEnd_readsOn :
  ⦃fun s => ⌜ReadsOn s₀ s⌝⦄
  expectEnd
  ⦃⇓? _ s => ⌜ReadsOn s₀ s ∧ s.pending = some .eof⌝⦄
  := by
  mvcgen [expectEnd, unexpected, fail_spec] with grind

/-! ### Marks, binding, and the rest of the reader -/

theorem mark_readsOn :
  ⦃fun s => ⌜ReadsOn s₀ s⌝⦄
  mark
  ⦃⇓? m s => ⌜ReadsOn s₀ s ∧ MarkOn s₀ m⌝⦄
  := by
  mvcgen [mark] with grind

/-- Going back to a mark on the text keeps what the binder learnt. -/
theorem reset_readsOn (m : Mark) :
  ⦃fun s => ⌜ReadsOn s₀ s ∧ MarkOn s₀ m⌝⦄
  reset m
  ⦃⇓? _ s => ⌜ReadsOn s₀ s⌝⦄
  := by
  mvcgen [reset] with grind

theorem budget_readsOn :
  ⦃fun s => ⌜ReadsOn s₀ s⌝⦄ budget ⦃⇓? _ s => ⌜ReadsOn s₀ s⌝⦄
  := by
  mvcgen [budget]

theorem current_readsOn :
  ⦃fun s => ⌜ReadsOn s₀ s⌝⦄ current ⦃⇓? _ s => ⌜ReadsOn s₀ s⌝⦄
  := by
  mvcgen [current]

theorem enterBlock_readsOn (q : QueryId) :
  ⦃fun s => ⌜ReadsOn s₀ s⌝⦄ enterBlock q ⦃⇓? _ s => ⌜ReadsOn s₀ s⌝⦄
  := by
  mvcgen [enterBlock]

theorem binder_readsOn :
  ⦃fun s => ⌜ReadsOn s₀ s⌝⦄
  binder
  ⦃⇓? b s => ⌜ReadsOn s₀ s ∧ b = s.binder⌝⦄
  := by
  mvcgen [binder]

/-- A step of binding that keeps the names reserved changes nothing else the reader reads by. -/
theorem bind_readsOn {α : Type} {m : Binding α} (hm : Binding.KeepsNames m) :
  ⦃fun s => ⌜ReadsOn s₀ s⌝⦄ Reading.bind m ⦃⇓? _ s => ⌜ReadsOn s₀ s⌝⦄
  := by
  mvcgen [Reading.bind, fail, errorAt] with
  | vc1 hs _ _ _ hrun =>
    have hcont := Triple.run_eq_ok (hm _) (Binder.Continues.refl _) hrun
    grind

attribute [local spec] fieldName_readsOn expectEnd_readsOn mark_readsOn reset_readsOn
  budget_readsOn current_readsOn enterBlock_readsOn binder_readsOn

theorem scalar_readsOn (e : Expr) :
  ⦃fun s => ⌜ReadsOn s₀ s⌝⦄ scalar e ⦃⇓? _ s => ⌜ReadsOn s₀ s⌝⦄
  := by
  mvcgen [scalar, orFail, fail_spec] with grind

theorem values_readsOn (e : Expr) :
  ⦃fun s => ⌜ReadsOn s₀ s⌝⦄ values e ⦃⇓? _ s => ⌜ReadsOn s₀ s⌝⦄
  := by
  mvcgen [values, orFail, fail_spec] with grind

/-! ### The steps of binding the grammar runs -/

theorem bind_newQuery_readsOn (parent : Option QueryId) (body : Body) :
  ⦃fun s => ⌜ReadsOn s₀ s⌝⦄
  Reading.bind (Binding.newQuery parent body)
  ⦃⇓? _ s => ⌜ReadsOn s₀ s⌝⦄
  := bind_readsOn s₀ (Binding.newQuery_continues parent body)

theorem bind_argument_readsOn (source : ArgSource) :
  ⦃fun s => ⌜ReadsOn s₀ s⌝⦄
  Reading.bind (Binding.argument source)
  ⦃⇓? _ s => ⌜ReadsOn s₀ s⌝⦄
  := bind_readsOn s₀ (Binding.argument_continues source)

theorem bind_declareRoot_readsOn (q : QueryId) (entity : Entity) (aliasName : String)
    (bulk : Bool) :
  ⦃fun s => ⌜ReadsOn s₀ s⌝⦄
  Reading.bind (Binding.declareRoot q entity aliasName bulk)
  ⦃⇓? _ s => ⌜ReadsOn s₀ s⌝⦄
  := bind_readsOn s₀ (Binding.declareRoot_continues q entity aliasName bulk)

theorem bind_navigate_readsOn (q : QueryId) (parent : FromId) (field : String)
    (semantics : JoinSemantics) :
  ⦃fun s => ⌜ReadsOn s₀ s⌝⦄
  Reading.bind (Binding.navigate q parent field semantics)
  ⦃⇓? _ s => ⌜ReadsOn s₀ s⌝⦄
  := bind_readsOn s₀ (Binding.navigate_continues q parent field semantics)

theorem bind_generateAlias_readsOn :
  ⦃fun s => ⌜ReadsOn s₀ s⌝⦄
  Reading.bind Binding.generateAlias
  ⦃⇓? _ s => ⌜ReadsOn s₀ s⌝⦄
  := bind_readsOn s₀ Binding.generateAlias_continues

theorem bind_declarePath_readsOn (q : QueryId) (parent : FromId) (field aliasName : String)
    (semantics : JoinSemantics) :
  ⦃fun s => ⌜ReadsOn s₀ s⌝⦄
  Reading.bind (Binding.declarePath q parent field aliasName semantics)
  ⦃⇓? _ s => ⌜ReadsOn s₀ s⌝⦄
  := bind_readsOn s₀ (Binding.declarePath_continues q parent field aliasName semantics)

theorem bind_markFetch_readsOn (f : FromId) :
  ⦃fun s => ⌜ReadsOn s₀ s⌝⦄
  Reading.bind (Binding.markFetch f)
  ⦃⇓? _ s => ⌜ReadsOn s₀ s⌝⦄
  := bind_readsOn s₀ (Binding.markFetch_continues f)

end Reading

/-- A path followed on its own binder, as a name of the block's first item is, keeps the names
reserved. -/
theorem navigate_run_continues {q : QueryId} {parent : FromId} {field : String}
    {semantics : JoinSemantics} {b b' : Binder} {r : Bound}
    (h : (Binding.navigate q parent field semantics).run b = .ok (r, b')) :
  b.Continues b'
  := Triple.run_eq_ok (Binding.navigate_continues q parent field semantics b)
    (Binder.Continues.refl b) h

namespace Grammar

variable {s₀ : Reader}

attribute [local spec] scalar_readsOn values_readsOn bind_newQuery_readsOn bind_argument_readsOn
  bind_declareRoot_readsOn bind_navigate_readsOn bind_generateAlias_readsOn
  bind_declarePath_readsOn bind_markFetch_readsOn

/-- A step of reading that reads on: from a reader reading on from any `s₀`, it ends at one
reading on from `s₀`. -/
abbrev ReadsOnward {α : Type} (m : Reading α) : Prop :=
  ∀ s₀ : Reader, ⦃fun s => ⌜ReadsOn s₀ s⌝⦄ m ⦃⇓? _ s => ⌜ReadsOn s₀ s⌝⦄

/-- A step of reading that reads on, and reads its text to the end unless it is `inner`. -/
abbrev ReadsThrough {α : Type} (m : Reading α) (inner : Bool) : Prop :=
  ∀ s₀ : Reader, ⦃fun s => ⌜ReadsOn s₀ s⌝⦄ m
    ⦃⇓? _ s => ⌜ReadsOn s₀ s ∧ (inner = false → s.pending = some .eof)⌝⦄

/-! ### Clauses around expressions -/

theorem skipToFrom_readsOn (fuel depth : Nat) :
  ⦃fun s => ⌜ReadsOn s₀ s⌝⦄ skipToFrom fuel depth ⦃⇓? _ s => ⌜ReadsOn s₀ s⌝⦄
  := by
  induction fuel generalizing depth with
  | zero => mvcgen [skipToFrom]
  | succ n ih =>
    mvcgen [skipToFrom, peek_readsOn, skip_readsOn, ih] with grind

theorem dottedRest_readsOn (fuel : Nat) (name : String) :
  ⦃fun s => ⌜ReadsOn s₀ s⌝⦄ dottedRest fuel name ⦃⇓? _ s => ⌜ReadsOn s₀ s⌝⦄
  := by
  induction fuel generalizing name with
  | zero => mvcgen [dottedRest]
  | succ n ih =>
    mvcgen [dottedRest, eat_readsOn, fieldName_readsOn, ih] with grind

attribute [local spec] skipToFrom_readsOn dottedRest_readsOn

theorem constructor_readsOn :
  ⦃fun s => ⌜ReadsOn s₀ s⌝⦄ constructor ⦃⇓? _ s => ⌜ReadsOn s₀ s⌝⦄
  := by
  mvcgen [constructor, expectIdentifier_readsOn, dottedRest_readsOn, budget_readsOn, fail_spec,
    expect_readsOn, binder_readsOn] with grind

theorem entityName_go_readsOn (fuel : Nat) (name tail : String) :
  ⦃fun s => ⌜ReadsOn s₀ s⌝⦄ entityName.go fuel name tail ⦃⇓? _ s => ⌜ReadsOn s₀ s⌝⦄
  := by
  induction fuel generalizing name tail with
  | zero =>
    mvcgen [entityName.go, fail_spec]
    grind
  | succ n ih =>
    mvcgen [entityName.go, binder_readsOn, eat_readsOn, fail_spec, fieldName_readsOn, ih]
    with grind

attribute [local spec] constructor_readsOn entityName_go_readsOn

theorem entityName_readsOn :
  ⦃fun s => ⌜ReadsOn s₀ s⌝⦄ entityName ⦃⇓? _ s => ⌜ReadsOn s₀ s⌝⦄
  := by
  mvcgen [entityName, word_readsOn, budget_readsOn, entityName_go_readsOn] with grind

theorem aliasName_readsOn :
  ⦃fun s => ⌜ReadsOn s₀ s⌝⦄ aliasName? ⦃⇓? _ s => ⌜ReadsOn s₀ s⌝⦄
  := by
  mvcgen [aliasName?, eatKeyword_readsOn, expectIdentifier_readsOn, peek_readsOn] with grind

attribute [local spec] entityName_readsOn aliasName_readsOn

theorem bulkTarget_readsOn (q : QueryId) :
  ⦃fun s => ⌜ReadsOn s₀ s⌝⦄ bulkTarget q ⦃⇓? _ s => ⌜ReadsOn s₀ s⌝⦄
  := by
  mvcgen [bulkTarget, entityName_readsOn, aliasName_readsOn, bind_declareRoot_readsOn]
  with grind

theorem segments_readsOn (fuel : Nat) (acc : List String) :
  ⦃fun s => ⌜ReadsOn s₀ s⌝⦄ segments fuel acc ⦃⇓? _ s => ⌜ReadsOn s₀ s⌝⦄
  := by
  induction fuel generalizing acc with
  | zero => mvcgen [segments]
  | succ n ih =>
    mvcgen [segments, eat_readsOn, fieldName_readsOn, ih] with grind

attribute [local spec] bulkTarget_readsOn segments_readsOn

theorem fromSource_readsOn (q : QueryId) (isIn : Bool) :
  ⦃fun s => ⌜ReadsOn s₀ s⌝⦄ fromSource q isIn ⦃⇓? _ s => ⌜ReadsOn s₀ s⌝⦄
  := by
  mvcgen [fromSource, peek_readsOn, binder_readsOn, entityName_readsOn, expectIdentifier_readsOn,
    fail_spec, segments_readsOn, budget_readsOn] with grind

/-- A FROM path without an alias gets a generated one, and its steps are joins: each a step of
binding that keeps the names reserved. -/
theorem declarePath_readsOn (q : QueryId) (root : FromId) (segs : List String)
    (aliasName : Option String) :
  ⦃fun s => ⌜ReadsOn s₀ s⌝⦄ declarePath q root segs aliasName ⦃⇓? _ s => ⌜ReadsOn s₀ s⌝⦄
  := by
  mvcgen [declarePath, fail_spec, bind_navigate_readsOn, bind_generateAlias_readsOn,
    bind_declarePath_readsOn, bind_markFetch_readsOn, binder_readsOn] invariants
  | inv1 => ⇓? _ s => ⌜ReadsOn s₀ s⌝
  with grind

attribute [local spec] fromSource_readsOn declarePath_readsOn

theorem fromItem_readsOn (q : QueryId) :
  ⦃fun s => ⌜ReadsOn s₀ s⌝⦄ fromItem q ⦃⇓? _ s => ⌜ReadsOn s₀ s⌝⦄
  := by
  mvcgen [fromItem, eatKeyword_readsOn, expect_readsOn, fromSource_readsOn, aliasName_readsOn,
    declareSource, fail_spec, bind_declareRoot_readsOn, declarePath_readsOn]
  with grind

attribute [local spec] fromItem_readsOn

theorem fromList_readsOn (q : QueryId) :
  ⦃fun s => ⌜ReadsOn s₀ s⌝⦄ fromList q ⦃⇓? _ s => ⌜ReadsOn s₀ s⌝⦄
  := by
  mvcgen [fromList, clearJoin, budget_readsOn, fromItem_readsOn, eat_readsOn,
    eatKeyword_readsOn, expectKeyword_readsOn] invariants
  | inv1 => ⇓? _ s => ⌜ReadsOn s₀ s⌝
  with grind

theorem path_readsOn (start : Bound) :
  ⦃fun s => ⌜ReadsOn s₀ s⌝⦄ path start ⦃⇓? _ s => ⌜ReadsOn s₀ s⌝⦄
  := by
  mvcgen [path, budget_readsOn, eat_readsOn, fieldName_readsOn, current_readsOn,
    bind_navigate_readsOn, check_readsOn, fail_spec] invariants
  | inv1 => ⇓? _ s => ⌜ReadsOn s₀ s⌝
  with grind

theorem isTest_readsOn (e : Expr) :
  ⦃fun s => ⌜ReadsOn s₀ s⌝⦄ isTest e ⦃⇓? _ s => ⌜ReadsOn s₀ s⌝⦄
  := by
  mvcgen [isTest, eatKeyword_readsOn, next_readsOn, values_readsOn, orFail, fail_spec,
    unexpected] with grind

theorem compare_readsOn (op : BinOp) (left right : Expr) :
  ⦃fun s => ⌜ReadsOn s₀ s⌝⦄ compare op left right ⦃⇓? _ s => ⌜ReadsOn s₀ s⌝⦄
  := by
  mvcgen [compare, binder_readsOn, current_readsOn, fail_spec, scalar_readsOn] with grind

theorem resultItem_readsOn (e : Expr) (hasFrom : Bool) :
  ⦃fun s => ⌜ReadsOn s₀ s⌝⦄ resultItem e hasFrom ⦃⇓? _ s => ⌜ReadsOn s₀ s⌝⦄
  := by
  mvcgen [resultItem, fail_spec] with grind

theorem checkArity_readsOn (function : String) (count least : Nat) (most : Option Nat) :
  ⦃fun s => ⌜ReadsOn s₀ s⌝⦄ checkArity function count least most ⦃⇓? _ s => ⌜ReadsOn s₀ s⌝⦄
  := by
  unfold checkArity
  dsimp only
  split_ifs
  · generalize Reason.wrongArgumentCount function _ = r
    mvcgen [fail_spec] with grind
  · mvcgen

theorem mapM_scalar_readsOn (args : List Expr) :
  ⦃fun s => ⌜ReadsOn s₀ s⌝⦄ args.mapM scalar ⦃⇓? _ s => ⌜ReadsOn s₀ s⌝⦄
  := by
  induction args with
  | nil =>
    simp only [List.mapM_nil]
    mvcgen
  | cons a as ih =>
    simp only [List.mapM_cons]
    mvcgen [scalar_readsOn, ih] with grind

attribute [local spec] fromList_readsOn path_readsOn isTest_readsOn compare_readsOn
  resultItem_readsOn checkArity_readsOn mapM_scalar_readsOn

theorem buildFunction_readsOn (name : String) (args : List Expr) (distinct : Bool) :
  ⦃fun s => ⌜ReadsOn s₀ s⌝⦄ buildFunction name args distinct ⦃⇓? _ s => ⌜ReadsOn s₀ s⌝⦄
  := by
  mvcgen [buildFunction, checkArity_readsOn, orFail, fail_spec, mapM_scalar_readsOn] with grind

/-- The FROM clause read ahead leaves the reader at the start of its block, and the point after
the clause is a mark on the text. -/
theorem fromClause_readsOn (q : QueryId) :
  ⦃fun s => ⌜ReadsOn s₀ s⌝⦄ fromClause q ⦃⇓? r s => ⌜ReadsOn s₀ s ∧ MarkOn s₀ r.2.2⌝⦄
  := by
  mvcgen [fromClause, mark_readsOn, budget_readsOn, skipToFrom_readsOn, skip_readsOn,
    fromList_readsOn, reset_readsOn] with grind

theorem selectList_readsOn {item : Reading Expr} (hitem : ReadsOnward item) (hasFrom : Bool) :
  ReadsOnward (selectList item hasFrom)
  := by
  unfold ReadsOnward at hitem ⊢
  intro s₀
  mvcgen [selectList, eatKeyword_readsOn, constructor_readsOn, budget_readsOn, hitem,
    resultItem_readsOn, eat_readsOn, expect_readsOn, checkKeyword_readsOn, unexpected, fail_spec,
    peek_readsOn] invariants
  | inv1 => ⇓? _ s => ⌜ReadsOn s₀ s⌝
  | inv2 => ⇓? _ s => ⌜ReadsOn s₀ s⌝
  with grind

theorem groupByList_readsOn {item : Reading Expr} (hitem : ReadsOnward item) :
  ReadsOnward (groupByList item)
  := by
  unfold ReadsOnward at hitem ⊢
  intro s₀
  mvcgen [groupByList, expectKeyword_readsOn, budget_readsOn, hitem, values_readsOn,
    eat_readsOn] invariants
  | inv1 => ⇓? _ s => ⌜ReadsOn s₀ s⌝
  with grind

theorem orderByList_readsOn {item : Reading Expr} (hitem : ReadsOnward item) :
  ReadsOnward (orderByList item)
  := by
  unfold ReadsOnward at hitem ⊢
  intro s₀
  mvcgen [orderByList, expectKeyword_readsOn, budget_readsOn, hitem, eatKeyword_readsOn,
    values_readsOn, eat_readsOn] invariants
  | inv1 => ⇓? _ s => ⌜ReadsOn s₀ s⌝
  with grind

theorem withFetches_readsOn (q : QueryId) (body : SelectBody) (fetches : List FetchJoin) :
  ⦃fun s => ⌜ReadsOn s₀ s⌝⦄ withFetches q body fetches ⦃⇓? _ s => ⌜ReadsOn s₀ s⌝⦄
  := by
  mvcgen [withFetches, fail_spec, binder]

theorem clauses_readsOn {item cond : Reading Expr} (hitem : ReadsOnward item)
    (hcond : ReadsOnward cond) (body : SelectBody) :
  ReadsOnward (clauses item cond body)
  := by
  have hgroup := groupByList_readsOn hitem
  have horder := orderByList_readsOn hitem
  unfold ReadsOnward at hcond hgroup horder ⊢
  intro s₀
  mvcgen [clauses, eatKeyword_readsOn, hcond, hgroup, checkKeyword_readsOn, fail_spec,
    skip_readsOn, horder] with grind

/-! ### The functions of the grammar -/

/-- The functions of the grammar read on, with `n` levels of nesting left; a SELECT that is not
inner reads its text to the end. -/
structure Reserving (n : Nat) : Prop where
  select : ∀ inner, ReadsThrough (select n inner) inner
  selectBody : ∀ q inner, ReadsThrough (selectBody n q inner) inner
  condition : ReadsOnward (condition n)
  expr : ReadsOnward (expr n)
  disjunction : ReadsOnward (disjunction n)
  conjunction : ReadsOnward (conjunction n)
  negation : ReadsOnward (negation n)
  comparison : ReadsOnward (comparison n)
  inPredicate : ∀ left negated, ReadsOnward (inPredicate n left negated)
  memberOf : ∀ item negated, ReadsOnward (memberOf n item negated)
  concatenation : ReadsOnward (concatenation n)
  sum : ReadsOnward (sum n)
  product : ReadsOnward (product n)
  term : ReadsOnward (term n)
  simpleTerm : ReadsOnward (simpleTerm n)
  identifierTerm : ∀ name, ReadsOnward (identifierTerm n name)
  subqueryTerm : ∀ keyword, ReadsOnward (subqueryTerm n keyword)
  function : ∀ name, ReadsOnward (function n name)
  trimCall : ReadsOnward (trimCall n)

section Steps

variable {n : Nat} (ih : Reserving n)
include ih

theorem condition_reserving : ReadsOnward (condition (n + 1)) := by
  have hexpr := ih.expr
  unfold ReadsOnward at hexpr ⊢
  intro s₀
  mvcgen [condition, hexpr, scalar_readsOn] with grind

theorem expr_reserving : ReadsOnward (expr (n + 1)) := by
  have hselect := ih.select
  have hdisj := ih.disjunction
  unfold ReadsThrough at hselect
  unfold ReadsOnward at hdisj ⊢
  intro s₀
  mvcgen [expr, checkKeyword_readsOn, hselect, hdisj] with grind

theorem disjunction_reserving : ReadsOnward (disjunction (n + 1)) := by
  have hconj := ih.conjunction
  unfold ReadsOnward at hconj ⊢
  intro s₀
  mvcgen [disjunction, hconj, checkKeyword_readsOn, scalar_readsOn, budget_readsOn,
    eatKeyword_readsOn] invariants
  | inv1 => ⇓? _ s => ⌜ReadsOn s₀ s⌝
  with grind

theorem concatenation_reserving : ReadsOnward (concatenation (n + 1)) := by
  have hsum := ih.sum
  unfold ReadsOnward at hsum ⊢
  intro s₀
  mvcgen [concatenation, hsum, budget_readsOn, eat_readsOn, scalar_readsOn] invariants
  | inv1 => ⇓? _ s => ⌜ReadsOn s₀ s⌝
  with grind

theorem conjunction_reserving : ReadsOnward (conjunction (n + 1)) := by
  have hneg := ih.negation
  unfold ReadsOnward at hneg ⊢
  intro s₀
  mvcgen [conjunction, hneg, checkKeyword_readsOn, scalar_readsOn, budget_readsOn,
    eatKeyword_readsOn] invariants
  | inv1 => ⇓? _ s => ⌜ReadsOn s₀ s⌝
  with grind

theorem negation_reserving : ReadsOnward (negation (n + 1)) := by
  have hneg := ih.negation
  have hcmp := ih.comparison
  unfold ReadsOnward at hneg hcmp ⊢
  intro s₀
  mvcgen [negation, eatKeyword_readsOn, hneg, hcmp, scalar_readsOn] with grind

theorem sum_reserving : ReadsOnward (sum (n + 1)) := by
  have hproduct := ih.product
  unfold ReadsOnward at hproduct ⊢
  intro s₀
  mvcgen [sum, hproduct, budget_readsOn, peek_readsOn, skip_readsOn, scalar_readsOn] invariants
  | inv1 => ⇓? _ s => ⌜ReadsOn s₀ s⌝
  with grind

theorem product_reserving : ReadsOnward (product (n + 1)) := by
  have hterm := ih.term
  unfold ReadsOnward at hterm ⊢
  intro s₀
  mvcgen [product, hterm, budget_readsOn, peek_readsOn, skip_readsOn, scalar_readsOn] invariants
  | inv1 => ⇓? _ s => ⌜ReadsOn s₀ s⌝
  with grind

theorem term_reserving : ReadsOnward (term (n + 1)) := by
  have hterm := ih.term
  have hsimple := ih.simpleTerm
  unfold ReadsOnward at hterm hsimple ⊢
  intro s₀
  mvcgen [term, peek_readsOn, hsimple, skip_readsOn, hterm, scalar_readsOn] with grind

theorem comparison_reserving : ReadsOnward (comparison (n + 1)) := by
  have hconcat := ih.concatenation
  have hin := ih.inPredicate
  have hmember := ih.memberOf
  unfold ReadsOnward at hconcat hin hmember ⊢
  intro s₀
  mvcgen [comparison, hconcat, eatKeyword_readsOn, peek_readsOn, skip_readsOn,
    expectKeyword_readsOn, scalar_readsOn, next_readsOn, fail_spec, isTest_readsOn, hin,
    hmember, compare_readsOn]
  with grind

theorem inPredicate_reserving : ∀ left negated, ReadsOnward (inPredicate (n + 1) left negated) := by
  have hselect := ih.select
  have hexpr := ih.expr
  unfold ReadsThrough at hselect
  unfold ReadsOnward at hexpr ⊢
  intro left negated s₀
  mvcgen [inPredicate, expect_readsOn, checkKeyword_readsOn, hselect, check_readsOn, fail_spec,
    budget_readsOn, hexpr, scalar_readsOn, eat_readsOn] invariants
  | inv1 => ⇓? _ s => ⌜ReadsOn s₀ s⌝
  with grind

theorem memberOf_reserving : ∀ item negated, ReadsOnward (memberOf (n + 1) item negated) := by
  have hconcat := ih.concatenation
  unfold ReadsOnward at hconcat ⊢
  intro item negated s₀
  mvcgen [memberOf, hconcat, fail_spec, orFail, binder] with grind

theorem simpleTerm_reserving : ReadsOnward (simpleTerm (n + 1)) := by
  have hid := ih.identifierTerm
  have hfun := ih.function
  have hexpr := ih.expr
  unfold ReadsOnward at hid hfun hexpr ⊢
  intro s₀
  mvcgen [simpleTerm, next_readsOn, hid, check_readsOn, hfun, unexpected, fail_spec,
    bind_argument_readsOn, hexpr, expect_readsOn]
  with grind

theorem identifierTerm_reserving : ∀ name, ReadsOnward (identifierTerm (n + 1) name) := by
  have hsub := ih.subqueryTerm
  have hfun := ih.function
  unfold ReadsOnward at hsub hfun ⊢
  intro name s₀
  mvcgen [identifierTerm, check_readsOn, hsub, hfun, current, binder, fail_spec, path_readsOn] with
  | vc5 =>
    rename_i hrun _
    have hcont := navigate_run_continues hrun
    grind
  all_goals grind

theorem subqueryTerm_reserving : ∀ keyword, ReadsOnward (subqueryTerm (n + 1) keyword) := by
  have hselect := ih.select
  unfold ReadsThrough at hselect
  unfold ReadsOnward
  intro keyword s₀
  mvcgen [subqueryTerm, expect_readsOn, checkKeyword_readsOn, fail_spec, hselect] with grind

attribute [local spec] buildFunction_readsOn fromClause_readsOn withFetches_readsOn

theorem function_reserving : ∀ name, ReadsOnward (function (n + 1) name) := by
  have hexpr := ih.expr
  have htrim := ih.trimCall
  unfold ReadsOnward at hexpr htrim ⊢
  intro name s₀
  mvcgen [function, expect_readsOn, hexpr, orFail, fail_spec, htrim, eatKeyword_readsOn,
    eat_readsOn, check_readsOn, budget_readsOn, buildFunction_readsOn] invariants
  | inv1 => ⇓? _ s => ⌜ReadsOn s₀ s⌝
  with grind

theorem trimCall_reserving : ReadsOnward (trimCall (n + 1)) := by
  have hexpr := ih.expr
  unfold ReadsOnward at hexpr ⊢
  intro s₀
  mvcgen [trimCall, peek_readsOn, skip_readsOn, eatKeyword_readsOn, hexpr, scalar_readsOn,
    unexpected, fail_spec, expect_readsOn]
  with grind

theorem select_reserving : ∀ inner, ReadsThrough (select (n + 1) inner) inner := by
  have hbody := ih.selectBody
  unfold ReadsThrough at hbody ⊢
  intro inner s₀
  mvcgen [select, bind_newQuery_readsOn, enterBlock_readsOn, hbody, modifyBlock]
  with grind

/-- The select list is read after the FROM clause, from the start of the block, and the reader
then goes back to the mark after the clause; a statement ends with the end of its text. -/
theorem selectBody_reserving : ∀ q inner, ReadsThrough (selectBody (n + 1) q inner) inner := by
  have hlist := selectList_readsOn ih.expr
  have hclauses := clauses_readsOn ih.expr ih.condition
  unfold ReadsOnward at hlist hclauses
  unfold ReadsThrough
  intro q inner s₀
  mvcgen [selectBody, fromClause_readsOn, hlist, reset_readsOn, withFetches_readsOn, hclauses,
    expectEnd_readsOn]
  with grind

/-- One more level of nesting reads on as the level below does. -/
theorem Reserving.succ : Reserving (n + 1) :=
  ⟨select_reserving ih, selectBody_reserving ih, condition_reserving ih, expr_reserving ih,
    disjunction_reserving ih, conjunction_reserving ih, negation_reserving ih,
    comparison_reserving ih, inPredicate_reserving ih, memberOf_reserving ih,
    concatenation_reserving ih, sum_reserving ih, product_reserving ih, term_reserving ih,
    simpleTerm_reserving ih, identifierTerm_reserving ih, subqueryTerm_reserving ih,
    function_reserving ih, trimCall_reserving ih⟩

end Steps

/-- With no nesting left, every function of the grammar fails at once. -/
theorem Reserving.zero : Reserving 0 where
  select _ _ := tooDeep_spec _ _
  selectBody _ _ _ := tooDeep_spec _ _
  condition _ := tooDeep_spec _ _
  expr _ := tooDeep_spec _ _
  disjunction _ := tooDeep_spec _ _
  conjunction _ := tooDeep_spec _ _
  negation _ := tooDeep_spec _ _
  comparison _ := tooDeep_spec _ _
  inPredicate _ _ _ := tooDeep_spec _ _
  memberOf _ _ _ := tooDeep_spec _ _
  concatenation _ := tooDeep_spec _ _
  sum _ := tooDeep_spec _ _
  product _ := tooDeep_spec _ _
  term _ := tooDeep_spec _ _
  simpleTerm _ := tooDeep_spec _ _
  identifierTerm _ _ := tooDeep_spec _ _
  subqueryTerm _ _ := tooDeep_spec _ _
  function _ _ := tooDeep_spec _ _
  trimCall _ := tooDeep_spec _ _

/-- The functions of the grammar read on, whatever nesting is left. -/
theorem reserving : ∀ n, Reserving n
  | 0 => Reserving.zero
  | n + 1 => (reserving n).succ

/-! ### Statements -/

theorem update_reserving (fuel : Nat) : ReadsThrough (update fuel) false := by
  have hexpr := (reserving fuel).expr
  have hcond := (reserving fuel).condition
  unfold ReadsOnward at hexpr hcond
  unfold ReadsThrough
  intro s₀
  mvcgen [update, expectKeyword_readsOn, bind_newQuery_readsOn, enterBlock_readsOn,
    bulkTarget_readsOn, binder_readsOn, budget_readsOn, fieldName_readsOn, eat_readsOn, fail_spec,
    expect_readsOn, hexpr, scalar_readsOn, eatKeyword_readsOn, hcond, expectEnd_readsOn,
    modifyBlock] invariants
  | inv1 => ⇓? _ s => ⌜ReadsOn s₀ s⌝
  with grind

theorem delete_reserving (fuel : Nat) : ReadsThrough (delete fuel) false := by
  have hcond := (reserving fuel).condition
  unfold ReadsOnward at hcond
  unfold ReadsThrough
  intro s₀
  mvcgen [delete, expectKeyword_readsOn, bind_newQuery_readsOn, enterBlock_readsOn,
    eatKeyword_readsOn, bulkTarget_readsOn, hcond, expectEnd_readsOn, modifyBlock]
  with grind

/-- A statement reads on, to the end of its text. -/
theorem statement_reserving (fuel : Nat) : ReadsThrough (statement fuel) false := by
  have hupdate := update_reserving fuel
  have hdelete := delete_reserving fuel
  have hselect := (reserving fuel).select false
  unfold ReadsThrough at hupdate hdelete hselect ⊢
  intro s₀
  mvcgen [statement, checkKeyword_readsOn, hupdate, hdelete, hselect] with grind

end Grammar

/-! ### Reading a text -/

namespace ParsedQuery

/-- The reader a text is read with: at the start of the text, with the binder of the schema
reserving the identifiers of the text, lower-cased. -/
def start (schema : Schema) (aliasPrefix text : String) : Reader :=
  { scanner := Scanner.ofString text
    binder := { Binder.ofSchema schema aliasPrefix with
                reserved := (identifiers text).map (·.map Char.toLower) } }

theorem readsOn_start (schema : Schema) (aliasPrefix text : String) :
  ReadsOn (start schema aliasPrefix text) (start schema aliasPrefix text)
  := ⟨⟨Relation.ReflTransGen.refl, fun _ h => by cases h⟩, rfl, Binder.Continues.refl _⟩

/-- Reading a statement from the start of a text keeps the names the binder reserves, and
reads the text to its end. -/
theorem statement_continues (schema : Schema) (aliasPrefix text : String) (fuel : Nat) :
  ⦃fun s => ⌜s = start schema aliasPrefix text⌝⦄
  Grammar.statement fuel
  ⦃⇓? _ s => ⌜(start schema aliasPrefix text).binder.Continues s.binder ∧ s.pending = some .eof⌝⦄
  := by
  have hstmt := Grammar.statement_reserving fuel (start schema aliasPrefix text)
  mvcgen [hstmt] with grind [readsOn_start]

/-- A text that reads scans without failure. -/
theorem tokenize_ok_of_read {schema : Schema} {aliasPrefix text : String} {p : ParsedQuery}
    (h : read schema aliasPrefix text = .ok p) :
  ∃ ts, tokenize text = .ok ts
  := by
  unfold read at h
  simp only [Bind.bind, Except.bind] at h
  split at h
  · cases h
  · rename_i r hrun
    obtain ⟨⟨hon, htext, -⟩, heof⟩ :=
      Triple.run_eq_ok (Grammar.statement_reserving _ _) (readsOn_start schema aliasPrefix text)
        hrun
    have hquery : r.2.text = text := htext
    rw [← hquery]
    exact tokenize_ok_of_onText hon (heof rfl)

/-- Each identifier token of a text that scans is one of its identifiers. -/
theorem mem_identifiers {text : String} {ts : List Token} (h : tokenize text = .ok ts)
    {name : String} (hmem : Token.identifier name ∈ ts) :
  name ∈ identifiers text
  := by
  unfold identifiers
  rw [h]
  exact List.mem_filterMap.mpr ⟨_, hmem, rfl⟩

end ParsedQuery

/-! ### Generated aliases -/

/-- Generated aliases are fresh. A text that compiles scans, and reading it from its start keeps
the names its binder reserves, which are the identifiers of the text: so from every binder that
continues the one reading starts with, the alias generated next differs, ignoring ASCII case,
from every identifier token of the text, from the alias of every item the binder holds, and from
every alias generated before it. -/
theorem compile_generatedAliases_fresh {schema : Schema} {o : CompileOptions} {text : String}
    {c : CompiledQuery} (h : compile schema o text = .ok c) :
  ∃ ts, tokenize text = .ok ts ∧
    ⦃fun s => ⌜s = ParsedQuery.start schema o.aliasPrefix text⌝⦄
      Grammar.statement (16 * (text.length + 4))
      ⦃⇓? _ s => ⌜(ParsedQuery.start schema o.aliasPrefix text).binder.Continues s.binder⌝⦄ ∧
    ∀ b : Binder, (ParsedQuery.start schema o.aliasPrefix text).binder.Continues b →
      ∃ n, b.nextAlias ≤ n ∧
        Binding.generateAlias.run b = .ok (b.candidate n, { b with nextAlias := n + 1 }) ∧
        (∀ name, Token.identifier name ∈ ts → asciiEqIgnoreCase name (b.candidate n) = false) ∧
        (∀ i ∈ b.graph.items, asciiEqIgnoreCase i.aliasName (b.candidate n) = false) ∧
        ∀ m < b.nextAlias, asciiEqIgnoreCase (b.candidate m) (b.candidate n) = false
  := by
  obtain ⟨p, hread, -⟩ := compile_eq_ok h
  obtain ⟨ts, hts⟩ := ParsedQuery.tokenize_ok_of_read hread
  refine ⟨ts, hts, ?_, fun b hb => ?_⟩
  · have hstmt := ParsedQuery.statement_continues schema o.aliasPrefix text
      (16 * (text.length + 4))
    mvcgen [hstmt] with grind
  · obtain ⟨n, hle, hfresh, hrun⟩ := Binding.generateAlias_fresh b
    refine ⟨n, hle, hrun, fun name hname => ?_, hfresh.items, hfresh.earlier⟩
    apply Bool.eq_false_iff.mpr
    rw [ne_eq, asciiEqIgnoreCase_iff]
    intro heq
    apply hfresh.reserved
    rw [hb.1, ← heq]
    exact List.mem_map_of_mem (ParsedQuery.mem_identifiers hts hname)

/-- In a text that names its item `eql0`, the first alias generated with the default prefix is
not `eql0`, in any case. -/
theorem staff_generatedAlias_skips_identifier :
  ∃ c, compile Schema.staff {} "SELECT eql0 FROM Employee eql0" = .ok c ∧
    ∃ a b, Binding.generateAlias.run
        (ParsedQuery.start Schema.staff "eql" "SELECT eql0 FROM Employee eql0").binder =
        .ok (a, b) ∧
      asciiEqIgnoreCase "eql0" a = false
  := by
  have hrun : (compile Schema.staff {} "SELECT eql0 FROM Employee eql0").isOk = true := by
    decide +kernel
  cases hc : compile Schema.staff {} "SELECT eql0 FROM Employee eql0" with
  | error e =>
    rw [hc] at hrun
    cases hrun
  | ok c =>
    obtain ⟨ts, hts, -, hfresh⟩ := compile_generatedAliases_fresh hc
    obtain ⟨n, -, hgen, hid, -, -⟩ := hfresh _ (Binder.Continues.refl _)
    have htokens : tokenize "SELECT eql0 FROM Employee eql0" =
        .ok [.keyword .select, .identifier "eql0", .keyword .from, .identifier "Employee",
          .identifier "eql0"] := by
      decide +kernel
    rw [htokens, Except.ok.injEq] at hts
    subst hts
    exact ⟨c, rfl, _, _, hgen, hid "eql0" (by simp)⟩

end EntityQuery
