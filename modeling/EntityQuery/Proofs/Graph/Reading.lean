import Mathlib
import EntityQuery.Proofs.Graph.Binding
import EntityQuery.Proofs.Query.Reading

/-!
# Reading keeps the reader formed

A reader is `Reader.Formed` when its binder is formed, the block it reads in is a block of the
graph, and the `JOIN FETCH` declarations it holds name items of the graph. Every step of
reading keeps a formed reader formed, lets its graph only grow, and keeps the block it reads
in: the triples below say so with the reader `s₀` a step starts from as their logical
variable, as for binding. A step that builds an expression builds one within the graph.

Within a block, `current` names a block of the graph; that is why the expression steps of
the grammar read with the block set (`s.query.isSome`), and why `select`, which reads a
nested block, sets the block back when it is done.
-/

open Std.Do

set_option mvcgen.warning false

namespace EntityQuery

/-- A reader whose binder is formed, whose block is one of the graph's, and whose pending
`JOIN FETCH` declarations name items of the graph. -/
structure Reader.Formed (s : Reader) : Prop where
  binder : s.binder.Formed
  query : ∀ q, s.query = some q → q.idx < s.binder.graph.blocks.size
  fetches : ∀ x ∈ s.pendingFetches,
    x.owner.idx < s.binder.graph.items.size ∧ x.target.idx < s.binder.graph.items.size

/-- The indices the reader's graph has. -/
def Reader.extent (s : Reader) : Extent := s.binder.graph.extent

@[grind =]
theorem Reader.extent_eq (s : Reader) : s.extent = s.binder.graph.extent := rfl

/-- Being formed reads the binder, the block and the pending declarations, and nothing else of
the reader. -/
theorem Reader.formed_iff (s : Reader) :
  s.Formed ↔ s.binder.Formed ∧ (∀ q, s.query = some q → q.idx < s.binder.graph.blocks.size) ∧
    ∀ x ∈ s.pendingFetches,
      x.owner.idx < s.binder.graph.items.size ∧ x.target.idx < s.binder.graph.items.size
  := ⟨fun h => ⟨h.binder, h.query, h.fetches⟩, fun ⟨hb, hq, hf⟩ => ⟨hb, hq, hf⟩⟩

/-- A reader changed in what it holds besides its binder, its block and its pending declarations
stays formed. Only such a change is unfolded by `grind`: a reader that is only known to be formed
stays opaque, which keeps the long runs of steps of the grammar cheap to check. -/
@[grind ←]
theorem Reader.Formed.frame {s : Reader} (hs : s.Formed) (scanner : Scanner) (pending : Option Token)
    (last : String) (joinSemantics : JoinSemantics) (joinFetch : Bool) :
  (Reader.mk scanner pending last s.binder s.query joinSemantics joinFetch s.pendingFetches).Formed
  := ⟨hs.binder, hs.query, hs.fetches⟩

/-- A formed reader set to read in a block of its graph stays formed. -/
@[grind ←]
theorem Reader.Formed.setQuery {s : Reader} (hs : s.Formed) {q : QueryId}
    (hq : q.idx < s.binder.graph.blocks.size) :
  (Reader.mk s.scanner s.pending s.last s.binder (some q) s.joinSemantics s.joinFetch
    s.pendingFetches).Formed
  := ⟨hs.binder, fun _ h => Option.some.inj h ▸ hq, hs.fetches⟩

/-- The block being read is a block of the graph. -/
@[grind →]
theorem Reader.Formed.query_lt {s : Reader} (hs : s.Formed) {q : QueryId} (hq : s.query = some q) :
  q.idx < s.binder.graph.blocks.size
  := hs.query q hq

/-- The block being read, when there is one, is a block of the graph. -/
theorem Reader.Formed.current_lt {s : Reader} (hs : s.Formed) (hq : s.query.isSome) :
  (s.query.getD ⟨0⟩).idx < s.binder.graph.blocks.size
  := by
  obtain ⟨q, hq'⟩ := Option.isSome_iff_exists.mp hq
  rw [hq', Option.getD_some]
  exact hs.query q hq'

/-- A reader whose binder is replaced by a formed one with a larger graph stays formed. -/
theorem Reader.Formed.withBinder {s : Reader} (hs : s.Formed) {b : Binder} (hb : b.Formed)
    (hx : s.binder.graph.extent ≤ b.graph.extent) :
  ({ s with binder := b } : Reader).Formed
  := by
  obtain ⟨hi, hbl, -⟩ := hx
  refine ⟨hb, fun q hq => ?_, fun x hxs => ?_⟩
  · exact Nat.lt_of_lt_of_le (hs.query q hq) hbl
  · obtain ⟨ho, ht⟩ := hs.fetches x hxs
    exact ⟨Nat.lt_of_lt_of_le ho hi, Nat.lt_of_lt_of_le ht hi⟩

namespace Reading

/-! ### Tokens -/

theorem peek_formed (s₀ : Reader) :
  ⦃fun s => ⌜s.Formed ∧ s₀.extent ≤ s.extent ∧ s.query = s₀.query⌝⦄
  peek
  ⦃⇓? _ s => ⌜s.Formed ∧ s₀.extent ≤ s.extent ∧ s.query = s₀.query⌝⦄
  := by
  mvcgen [peek, scan] with grind

theorem next_formed (s₀ : Reader) :
  ⦃fun s => ⌜s.Formed ∧ s₀.extent ≤ s.extent ∧ s.query = s₀.query⌝⦄
  next
  ⦃⇓? _ s => ⌜s.Formed ∧ s₀.extent ≤ s.extent ∧ s.query = s₀.query⌝⦄
  := by
  mvcgen [next, scan] with grind

/- As for soundness, each triple is a spec for `mvcgen` from the first proof that builds on it,
which then starts once the triple is checked. -/
attribute [local spec] fail_spec peek_formed next_formed

theorem skip_formed (s₀ : Reader) :
  ⦃fun s => ⌜s.Formed ∧ s₀.extent ≤ s.extent ∧ s.query = s₀.query⌝⦄
  skip
  ⦃⇓? _ s => ⌜s.Formed ∧ s₀.extent ≤ s.extent ∧ s.query = s₀.query⌝⦄
  := by
  mvcgen [skip]

theorem check_formed (t : Token) (s₀ : Reader) :
  ⦃fun s => ⌜s.Formed ∧ s₀.extent ≤ s.extent ∧ s.query = s₀.query⌝⦄
  check t
  ⦃⇓? _ s => ⌜s.Formed ∧ s₀.extent ≤ s.extent ∧ s.query = s₀.query⌝⦄
  := by
  mvcgen [check]

theorem checkKeyword_formed (k : Keyword) (s₀ : Reader) :
  ⦃fun s => ⌜s.Formed ∧ s₀.extent ≤ s.extent ∧ s.query = s₀.query⌝⦄
  checkKeyword k
  ⦃⇓? _ s => ⌜s.Formed ∧ s₀.extent ≤ s.extent ∧ s.query = s₀.query⌝⦄
  := by
  mvcgen [checkKeyword]

attribute [local spec] skip_formed check_formed checkKeyword_formed

theorem eat_formed (t : Token) (s₀ : Reader) :
  ⦃fun s => ⌜s.Formed ∧ s₀.extent ≤ s.extent ∧ s.query = s₀.query⌝⦄
  eat t
  ⦃⇓? _ s => ⌜s.Formed ∧ s₀.extent ≤ s.extent ∧ s.query = s₀.query⌝⦄
  := by
  mvcgen [eat] with grind

theorem eatKeyword_formed (k : Keyword) (s₀ : Reader) :
  ⦃fun s => ⌜s.Formed ∧ s₀.extent ≤ s.extent ∧ s.query = s₀.query⌝⦄
  eatKeyword k
  ⦃⇓? _ s => ⌜s.Formed ∧ s₀.extent ≤ s.extent ∧ s.query = s₀.query⌝⦄
  := by
  mvcgen [eatKeyword] with grind

theorem expect_formed (t : Token) (s₀ : Reader) :
  ⦃fun s => ⌜s.Formed ∧ s₀.extent ≤ s.extent ∧ s.query = s₀.query⌝⦄
  expect t
  ⦃⇓? _ s => ⌜s.Formed ∧ s₀.extent ≤ s.extent ∧ s.query = s₀.query⌝⦄
  := by
  mvcgen [expect, unexpected] with grind

theorem expectKeyword_formed (k : Keyword) (s₀ : Reader) :
  ⦃fun s => ⌜s.Formed ∧ s₀.extent ≤ s.extent ∧ s.query = s₀.query⌝⦄
  expectKeyword k
  ⦃⇓? _ s => ⌜s.Formed ∧ s₀.extent ≤ s.extent ∧ s.query = s₀.query⌝⦄
  := by
  mvcgen [expectKeyword, unexpected] with grind

theorem expectIdentifier_formed (s₀ : Reader) :
  ⦃fun s => ⌜s.Formed ∧ s₀.extent ≤ s.extent ∧ s.query = s₀.query⌝⦄
  expectIdentifier
  ⦃⇓? _ s => ⌜s.Formed ∧ s₀.extent ≤ s.extent ∧ s.query = s₀.query⌝⦄
  := by
  mvcgen [expectIdentifier, unexpected] with grind

theorem word_formed (expected : String) (s₀ : Reader) :
  ⦃fun s => ⌜s.Formed ∧ s₀.extent ≤ s.extent ∧ s.query = s₀.query⌝⦄
  word expected
  ⦃⇓? _ s => ⌜s.Formed ∧ s₀.extent ≤ s.extent ∧ s.query = s₀.query⌝⦄
  := by
  mvcgen [word, unexpected] with grind

attribute [local spec] word_formed

theorem fieldName_formed (s₀ : Reader) :
  ⦃fun s => ⌜s.Formed ∧ s₀.extent ≤ s.extent ∧ s.query = s₀.query⌝⦄
  fieldName
  ⦃⇓? _ s => ⌜s.Formed ∧ s₀.extent ≤ s.extent ∧ s.query = s₀.query⌝⦄
  := by
  mvcgen [fieldName]

theorem expectEnd_formed (s₀ : Reader) :
  ⦃fun s => ⌜s.Formed ∧ s₀.extent ≤ s.extent ∧ s.query = s₀.query⌝⦄
  expectEnd
  ⦃⇓? _ s => ⌜s.Formed ∧ s₀.extent ≤ s.extent ∧ s.query = s₀.query⌝⦄
  := by
  mvcgen [expectEnd, unexpected] with grind

/-! ### The reader's own state -/

theorem budget_formed (s₀ : Reader) :
  ⦃fun s => ⌜s.Formed ∧ s₀.extent ≤ s.extent ∧ s.query = s₀.query⌝⦄
  budget
  ⦃⇓? _ s => ⌜s.Formed ∧ s₀.extent ≤ s.extent ∧ s.query = s₀.query⌝⦄
  := by
  mvcgen [budget]

/-- Inside a block, the block being read is a block of the graph. -/
theorem current_formed (s₀ : Reader) :
  ⦃fun s => ⌜s.Formed ∧ s₀.extent ≤ s.extent ∧ s.query = s₀.query ∧ s.query.isSome⌝⦄
  current
  ⦃⇓? q s => ⌜s.Formed ∧ s₀.extent ≤ s.extent ∧ s.query = s₀.query ∧ s.query.isSome ∧
      q.idx < s.binder.graph.blocks.size⌝⦄
  := by
  mvcgen [current] with
  | vc1 hs => exact ⟨hs.1, hs.2.1, hs.2.2.1, hs.2.2.2, hs.1.current_lt hs.2.2.2⟩

theorem mark_formed (s₀ : Reader) :
  ⦃fun s => ⌜s.Formed ∧ s₀.extent ≤ s.extent ∧ s.query = s₀.query⌝⦄
  mark
  ⦃⇓? _ s => ⌜s.Formed ∧ s₀.extent ≤ s.extent ∧ s.query = s₀.query⌝⦄
  := by
  mvcgen [mark]

theorem reset_formed (m : Mark) (s₀ : Reader) :
  ⦃fun s => ⌜s.Formed ∧ s₀.extent ≤ s.extent ∧ s.query = s₀.query⌝⦄
  reset m
  ⦃⇓? _ s => ⌜s.Formed ∧ s₀.extent ≤ s.extent ∧ s.query = s₀.query⌝⦄
  := by
  mvcgen [reset] with grind

/-- Entering a block of the graph reads in it from then on. -/
theorem enterBlock_formed (q : QueryId) (s₀ : Reader) :
  ⦃fun s => ⌜s.Formed ∧ s₀.extent ≤ s.extent ∧ q.idx < s.binder.graph.blocks.size⌝⦄
  enterBlock q
  ⦃⇓? _ s => ⌜s.Formed ∧ s₀.extent ≤ s.extent ∧ s.query = some q⌝⦄
  := by
  mvcgen [enterBlock] with grind

/-- The binder read is the reader's, and what its aliases and first items name are items of the
graph. -/
theorem binder_formed (s₀ : Reader) :
  ⦃fun s => ⌜s.Formed ∧ s₀.extent ≤ s.extent ∧ s.query = s₀.query⌝⦄
  binder
  ⦃⇓? b s => ⌜s.Formed ∧ s₀.extent ≤ s.extent ∧ s.query = s₀.query ∧ b = s.binder ∧
      (∀ q name f, b.lookupAlias q name = some f → f.idx < b.graph.items.size) ∧
      ∀ q f, b.firstItem q = some f → f.idx < b.graph.items.size⌝⦄
  := by
  mvcgen [binder] with
  | vc1 hs =>
    obtain ⟨hf, hx, hq⟩ := hs
    exact ⟨hf, hx, hq, trivial, fun _ _ _ h => Binder.lookupAlias_lt hf.binder.graph h,
      fun _ _ h => Binder.firstItem_lt hf.binder.graph h⟩

attribute [local spec] binder_formed

/-! ### Values -/

/-- An expression taken as one value stays within the graph. -/
theorem scalar_formed (e : Expr) (s₀ : Reader) :
  ⦃fun s => ⌜s.Formed ∧ s₀.extent ≤ s.extent ∧ s.query = s₀.query ∧ e.Within s.extent⌝⦄
  scalar e
  ⦃⇓? r s => ⌜s.Formed ∧ s₀.extent ≤ s.extent ∧ s.query = s₀.query ∧ r.Within s.extent⌝⦄
  := by
  mvcgen [scalar, orFail] with
  | vc3 hs _ _ hok _ hs' =>
    obtain ⟨hf, hk, hq, rfl, -⟩ := hs'
    exact ⟨hf, by grind, by grind, Binder.within_toScalar hok (Expr.Within.mono hk _ hs.2.2.2)⟩
  all_goals grind

/-- The values an expression within the graph stands for are within it. -/
theorem values_formed (e : Expr) (s₀ : Reader) :
  ⦃fun s => ⌜s.Formed ∧ s₀.extent ≤ s.extent ∧ s.query = s₀.query ∧ e.Within s.extent⌝⦄
  values e
  ⦃⇓? vs s => ⌜s.Formed ∧ s₀.extent ≤ s.extent ∧ s.query = s₀.query ∧
      ∀ v ∈ vs, v.Within s.extent⌝⦄
  := by
  mvcgen [values, orFail] with
  | vc3 hs _ _ hok _ hs' =>
    obtain ⟨hf, hk, hq, rfl, -⟩ := hs'
    exact ⟨hf, by grind, by grind, Binder.within_toValues hok (Expr.Within.mono hk _ hs.2.2.2)⟩
  all_goals grind

/-- A block changed into one that keeps the graph well-formed, with the same FROM list, keeps
the reader formed. -/
theorem modifyBlock_formed (q : QueryId) (h : Block → Block)
    (hfrom : ∀ blk, (h blk).fromList = blk.fromList) (s₀ : Reader) :
  ⦃fun s => ⌜s.Formed ∧ s₀.extent ≤ s.extent ∧ s.query = s₀.query ∧
      (s.binder.graph.modifyBlock q h).WellFormed⌝⦄
  modifyBlock q h
  ⦃⇓? _ s => ⌜s.Formed ∧ s₀.extent ≤ s.extent ∧ s.query = s₀.query⌝⦄
  := by
  mvcgen [modifyBlock] with
  | vc1 hs t =>
    simp only [t]
    obtain ⟨hf, hx, hq, hg⟩ := hs
    refine ⟨hf.withBinder (hf.binder.withGraph hg (hf.binder.placed.modifyBlock q h hfrom)
      (by simp)) ?_, ?_, hq⟩
    · rw [Graph.extent_modifyBlock]
      exact Extent.le_refl _
    · simp only [Reader.extent_eq, Graph.extent_modifyBlock]
      exact hx

/-! ### Binding -/

/-- A step of binding keeps a formed reader formed when it keeps its binder formed. -/
theorem bind_formed {α : Type} {m : Binding α} {P : Binder → Prop} {Q : α → Binder → Prop}
    (hm : ∀ b₀ : Binder,
      ⦃fun b => ⌜b.Formed ∧ b₀.graph.extent ≤ b.graph.extent ∧ P b⌝⦄
      m
      ⦃⇓? a b => ⌜b.Formed ∧ b₀.graph.extent ≤ b.graph.extent ∧ Q a b⌝⦄)
    (s₀ : Reader) :
  ⦃fun s => ⌜s.Formed ∧ s₀.extent ≤ s.extent ∧ s.query = s₀.query ∧ P s.binder⌝⦄
  Reading.bind m
  ⦃⇓? a s => ⌜s.Formed ∧ s₀.extent ≤ s.extent ∧ s.query = s₀.query ∧ Q a s.binder⌝⦄
  := by
  mvcgen [Reading.bind, fail, errorAt] with
  | vc1 hs _ _ hrun =>
    obtain ⟨hf, hx, hq, hp⟩ := hs
    obtain ⟨hb, hk, hQ⟩ := Triple.run_eq_ok (hm _) ⟨hf.binder, Extent.le_refl _, hp⟩ hrun
    exact ⟨hf.withBinder hb hk, Extent.le_trans hx hk, hq, hQ⟩

/-- `bind_formed` for a step that only keeps the binder formed. -/
theorem bind_frame_formed {α : Type} {m : Binding α}
    (hm : ∀ b₀ : Binder,
      ⦃fun b => ⌜b.Formed ∧ b₀.graph.extent ≤ b.graph.extent⌝⦄
      m
      ⦃⇓? _ b => ⌜b.Formed ∧ b₀.graph.extent ≤ b.graph.extent⌝⦄)
    (s₀ : Reader) :
  ⦃fun s => ⌜s.Formed ∧ s₀.extent ≤ s.extent ∧ s.query = s₀.query⌝⦄
  Reading.bind m
  ⦃⇓? _ s => ⌜s.Formed ∧ s₀.extent ≤ s.extent ∧ s.query = s₀.query⌝⦄
  := by
  mvcgen [Reading.bind, fail, errorAt] with
  | vc1 hs _ _ hrun =>
    obtain ⟨hf, hx, hq⟩ := hs
    obtain ⟨hb, hk⟩ := Triple.run_eq_ok (hm _) ⟨hf.binder, Extent.le_refl _⟩ hrun
    exact ⟨hf.withBinder hb hk, Extent.le_trans hx hk, hq⟩

theorem bind_newQuery_formed (parent : Option QueryId) (body : Body) (s₀ : Reader) :
  ⦃fun s => ⌜s.Formed ∧ s₀.extent ≤ s.extent ∧ s.query = s₀.query ∧
      ((∀ p, parent = some p → p.idx < s.binder.graph.blocks.size) ∧
      (∀ e ∈ body.expressions, e.Within s.binder.graph.extent) ∧
      ∀ sb, body = .select sb → sb.fetches = [])⌝⦄
  Reading.bind (Binding.newQuery parent body)
  ⦃⇓? q s => ⌜s.Formed ∧ s₀.extent ≤ s.extent ∧ s.query = s₀.query ∧
      q.idx < s.binder.graph.blocks.size⌝⦄
  := bind_formed (Binding.newQuery_formed parent body) s₀

theorem bind_argument_formed (source : ArgSource) (s₀ : Reader) :
  ⦃fun s => ⌜s.Formed ∧ s₀.extent ≤ s.extent ∧ s.query = s₀.query ∧ True⌝⦄
  Reading.bind (Binding.argument source)
  ⦃⇓? i s => ⌜s.Formed ∧ s₀.extent ≤ s.extent ∧ s.query = s₀.query ∧
      i < s.binder.graph.arguments.size⌝⦄
  := @bind_formed _ _ (fun _ => True) (fun i b => i < b.graph.arguments.size)
    (fun b₀ => by mvcgen [Binding.argument_formed] with grind) s₀

theorem bind_declareRoot_formed (q : QueryId) (entity : Entity) (aliasName : String)
    (bulk : Bool) (s₀ : Reader) :
  ⦃fun s => ⌜s.Formed ∧ s₀.extent ≤ s.extent ∧ s.query = s₀.query ∧
      q.idx < s.binder.graph.blocks.size⌝⦄
  Reading.bind (Binding.declareRoot q entity aliasName bulk)
  ⦃⇓? f s => ⌜s.Formed ∧ s₀.extent ≤ s.extent ∧ s.query = s₀.query ∧
      f.idx < s.binder.graph.items.size⌝⦄
  := bind_formed (Binding.declareRoot_formed q entity aliasName bulk) s₀

theorem bind_navigate_formed (q : QueryId) (parent : FromId) (field : String)
    (semantics : JoinSemantics) (s₀ : Reader) :
  ⦃fun s => ⌜s.Formed ∧ s₀.extent ≤ s.extent ∧ s.query = s₀.query ∧
      (q.idx < s.binder.graph.blocks.size ∧ parent.idx < s.binder.graph.items.size)⌝⦄
  Reading.bind (Binding.navigate q parent field semantics)
  ⦃⇓? r s => ⌜s.Formed ∧ s₀.extent ≤ s.extent ∧ s.query = s₀.query ∧
      r.toExpr.Within s.binder.graph.extent⌝⦄
  := bind_formed (Binding.navigate_formed q parent field semantics) s₀

theorem bind_generateAlias_formed (s₀ : Reader) :
  ⦃fun s => ⌜s.Formed ∧ s₀.extent ≤ s.extent ∧ s.query = s₀.query⌝⦄
  Reading.bind Binding.generateAlias
  ⦃⇓? _ s => ⌜s.Formed ∧ s₀.extent ≤ s.extent ∧ s.query = s₀.query⌝⦄
  := bind_frame_formed Binding.generateAlias_formed s₀

theorem bind_declarePath_formed (q : QueryId) (parent : FromId) (field aliasName : String)
    (semantics : JoinSemantics) (s₀ : Reader) :
  ⦃fun s => ⌜s.Formed ∧ s₀.extent ≤ s.extent ∧ s.query = s₀.query ∧
      (q.idx < s.binder.graph.blocks.size ∧ parent.idx < s.binder.graph.items.size)⌝⦄
  Reading.bind (Binding.declarePath q parent field aliasName semantics)
  ⦃⇓? f s => ⌜s.Formed ∧ s₀.extent ≤ s.extent ∧ s.query = s₀.query ∧
      f.idx < s.binder.graph.items.size⌝⦄
  := bind_formed (Binding.declarePath_formed q parent field aliasName semantics) s₀

theorem bind_markFetch_formed (f : FromId) (s₀ : Reader) :
  ⦃fun s => ⌜s.Formed ∧ s₀.extent ≤ s.extent ∧ s.query = s₀.query⌝⦄
  Reading.bind (Binding.markFetch f)
  ⦃⇓? _ s => ⌜s.Formed ∧ s₀.extent ≤ s.extent ∧ s.query = s₀.query⌝⦄
  := bind_frame_formed (Binding.markFetch_formed f) s₀

end Reading

end EntityQuery
