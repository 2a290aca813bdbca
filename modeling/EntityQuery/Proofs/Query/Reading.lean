import Mathlib
import EntityQuery.Proofs.Query.Binding
import EntityQuery.Proofs.Token.Lexemes
import EntityQuery.Query.Reader

/-!
# Reading keeps the reader sound

A reader is `Reader.Sound` when its graph is sound, its scanner stands where its offset says,
and the token it looked ahead at is copyable from the text the scanner took last. Every step of
reading keeps a sound reader sound and never takes a parameter away: the triples below say so
with the reader `s₀` a step starts from as their logical variable, as for binding.

A token taken by `next` is copyable from the text the scanner stands after: a string's value
and an identifier's name are plain SQL text, and so is the spelling of a keyword as written.
That is how a name or a string literal read from the text reaches an expression, and why the
expressions a sound reader builds are writable.

`Reading.bind` runs a step of binding: one triple turns the binding triple of each step into a
reading one.
-/

open Std.Do

set_option mvcgen.warning false

namespace EntityQuery

open SqlText

/-- The number of parameters the reader's graph has. -/
def Reader.params (s : Reader) : Nat := s.binder.graph.arguments.size

/-- A reader whose graph is sound, whose scanner is at its offset, and whose token looked
ahead at is copyable from the text scanned last. -/
structure Reader.Sound (s : Reader) : Prop where
  graph : s.binder.graph.Sound
  scanner : s.scanner.Sound
  pending : ∀ t, s.pending = some t → t.Copyable s.scanner.lexeme

/-- The parameters are the graph's, whatever else of the reader changes. -/
@[grind =]
theorem Reader.params_eq (s : Reader) : s.params = s.binder.graph.arguments.size := rfl

/-- Soundness reads the graph, the scanner and the token looked ahead at, and nothing else of
the reader. -/
@[grind =]
theorem Reader.sound_iff (s : Reader) :
  s.Sound ↔ s.binder.graph.Sound ∧ s.scanner.Sound ∧
    ∀ t, s.pending = some t → t.Copyable s.scanner.lexeme
  := ⟨fun h => ⟨h.graph, h.scanner, h.pending⟩, fun ⟨hg, hs, hp⟩ => ⟨hg, hs, hp⟩⟩

/-- A point of the text a sound reader may go back to. -/
def Mark.Sound (m : Mark) : Prop :=
  m.scanner.Sound ∧ ∀ t, m.pending = some t → t.Copyable m.scanner.lexeme

/-- What the binder's answer to `toScalar` holds is what the expression held. -/
theorem writable_toScalar {b : Binder} {e r : Expr} {n : Nat} (h : b.toScalar e = .ok r)
    (he : e.Writable n) :
  r.Writable n
  := by
  unfold Binder.toScalar at h
  split at h
  · split at h
    · cases h
      trivial
    · cases h
  · cases h
  · cases h
  · cases h
    exact he

/-- The values of an entity are its identity columns; the value of anything else is the
expression as one value. -/
theorem writable_toValues {b : Binder} {e : Expr} {vs : List Expr} {n : Nat}
    (h : b.toValues e = .ok vs) (he : e.Writable n) :
  ∀ v ∈ vs, v.Writable n
  := by
  unfold Binder.toValues at h
  split at h
  · cases h
    intro v hv
    obtain ⟨k, -, rfl⟩ := List.mem_map.mp hv
    trivial
  · cases hs : b.toScalar e with
    | error r => simp [hs] at h; cases h
    | ok r =>
      simp only [hs, Except.map] at h
      cases h
      intro v hv
      rw [List.mem_singleton.mp hv]
      exact writable_toScalar hs he

/-- The keyword spellings are plain text. -/
theorem plain_spelling (k : Keyword) :
  PlainText k.spelling
  := by
  cases k <;> decide

namespace Reading

/-- A failure never returns. -/
theorem fail_spec {α : Type} (r : Reason) :
  ⦃⌜True⌝⦄
  (fail r : Reading α)
  ⦃⇓? _ _ => ⌜False⌝⦄
  := by
  mvcgen [fail, errorAt]

/-! ### Tokens -/

theorem peek_spec (s₀ : Reader) :
  ⦃fun s => ⌜s.Sound ∧ s₀.params ≤ s.params⌝⦄
  peek
  ⦃⇓? _ s => ⌜s.Sound ∧ s₀.params ≤ s.params⌝⦄
  := by
  mvcgen [peek, scan] with
  | vc2 hs _ _ _ hnext _ =>
    obtain ⟨hsc, hcopy⟩ := Scanner.next_copyable hs.1.scanner hnext
    exact ⟨⟨hs.1.graph, hsc, fun _ h => Option.some.inj h ▸ hcopy⟩, hs.2⟩

/-- The token taken is copyable from the text scanned last. -/
theorem next_spec (s₀ : Reader) :
  ⦃fun s => ⌜s.Sound ∧ s₀.params ≤ s.params⌝⦄
  next
  ⦃⇓? t s => ⌜s.Sound ∧ s₀.params ≤ s.params ∧ t.Copyable s.scanner.lexeme⌝⦄
  := by
  mvcgen [next, scan] with
  | vc1 hs _ t hpending _ _ =>
    exact ⟨⟨hs.1.graph, hs.1.scanner, fun _ h => nomatch h⟩, hs.2, hs.1.pending t hpending⟩
  | vc2 hs _ hnone _ _ hnext _ =>
    obtain ⟨hsc, hcopy⟩ := Scanner.next_copyable hs.1.scanner hnext
    exact ⟨⟨hs.1.graph, hsc, fun _ h => nomatch hnone.symm.trans h⟩, hs.2, hcopy⟩

/- Each triple is a spec for `mvcgen` from the first proof that builds on it: that proof then
starts once the triple is checked. -/
attribute [local spec] fail_spec peek_spec next_spec

theorem skip_spec (s₀ : Reader) :
  ⦃fun s => ⌜s.Sound ∧ s₀.params ≤ s.params⌝⦄
  skip
  ⦃⇓? _ s => ⌜s.Sound ∧ s₀.params ≤ s.params⌝⦄
  := by
  mvcgen [skip] with grind

theorem check_spec (t : Token) (s₀ : Reader) :
  ⦃fun s => ⌜s.Sound ∧ s₀.params ≤ s.params⌝⦄
  check t
  ⦃⇓? _ s => ⌜s.Sound ∧ s₀.params ≤ s.params⌝⦄
  := by
  mvcgen [check]

theorem checkKeyword_spec (k : Keyword) (s₀ : Reader) :
  ⦃fun s => ⌜s.Sound ∧ s₀.params ≤ s.params⌝⦄
  checkKeyword k
  ⦃⇓? _ s => ⌜s.Sound ∧ s₀.params ≤ s.params⌝⦄
  := by
  mvcgen [checkKeyword]

attribute [local spec] skip_spec check_spec checkKeyword_spec

theorem eat_spec (t : Token) (s₀ : Reader) :
  ⦃fun s => ⌜s.Sound ∧ s₀.params ≤ s.params⌝⦄
  eat t
  ⦃⇓? _ s => ⌜s.Sound ∧ s₀.params ≤ s.params⌝⦄
  := by
  mvcgen [eat] with grind

theorem eatKeyword_spec (k : Keyword) (s₀ : Reader) :
  ⦃fun s => ⌜s.Sound ∧ s₀.params ≤ s.params⌝⦄
  eatKeyword k
  ⦃⇓? _ s => ⌜s.Sound ∧ s₀.params ≤ s.params⌝⦄
  := by
  mvcgen [eatKeyword] with grind

theorem expect_spec (t : Token) (s₀ : Reader) :
  ⦃fun s => ⌜s.Sound ∧ s₀.params ≤ s.params⌝⦄
  expect t
  ⦃⇓? _ s => ⌜s.Sound ∧ s₀.params ≤ s.params⌝⦄
  := by
  mvcgen [expect, unexpected] with grind

theorem expectKeyword_spec (k : Keyword) (s₀ : Reader) :
  ⦃fun s => ⌜s.Sound ∧ s₀.params ≤ s.params⌝⦄
  expectKeyword k
  ⦃⇓? _ s => ⌜s.Sound ∧ s₀.params ≤ s.params⌝⦄
  := by
  mvcgen [expectKeyword, unexpected] with grind

theorem expectIdentifier_spec (s₀ : Reader) :
  ⦃fun s => ⌜s.Sound ∧ s₀.params ≤ s.params⌝⦄
  expectIdentifier
  ⦃⇓? _ s => ⌜s.Sound ∧ s₀.params ≤ s.params⌝⦄
  := by
  mvcgen [expectIdentifier, unexpected] with grind

theorem word_spec (expected : String) (s₀ : Reader) :
  ⦃fun s => ⌜s.Sound ∧ s₀.params ≤ s.params⌝⦄
  word expected
  ⦃⇓? _ s => ⌜s.Sound ∧ s₀.params ≤ s.params⌝⦄
  := by
  mvcgen [word, unexpected] with grind

attribute [local spec] word_spec

theorem fieldName_spec (s₀ : Reader) :
  ⦃fun s => ⌜s.Sound ∧ s₀.params ≤ s.params⌝⦄
  fieldName
  ⦃⇓? _ s => ⌜s.Sound ∧ s₀.params ≤ s.params⌝⦄
  := by
  mvcgen [fieldName]

theorem expectEnd_spec (s₀ : Reader) :
  ⦃fun s => ⌜s.Sound ∧ s₀.params ≤ s.params⌝⦄
  expectEnd
  ⦃⇓? _ s => ⌜s.Sound ∧ s₀.params ≤ s.params⌝⦄
  := by
  mvcgen [expectEnd, unexpected] with grind

/-! ### The reader's own state -/

theorem budget_spec (s₀ : Reader) :
  ⦃fun s => ⌜s.Sound ∧ s₀.params ≤ s.params⌝⦄
  budget
  ⦃⇓? _ s => ⌜s.Sound ∧ s₀.params ≤ s.params⌝⦄
  := by
  mvcgen [budget]

theorem current_spec (s₀ : Reader) :
  ⦃fun s => ⌜s.Sound ∧ s₀.params ≤ s.params⌝⦄
  current
  ⦃⇓? _ s => ⌜s.Sound ∧ s₀.params ≤ s.params⌝⦄
  := by
  mvcgen [current]

/-- A mark of a sound reader is a point it may go back to. -/
theorem mark_spec (s₀ : Reader) :
  ⦃fun s => ⌜s.Sound ∧ s₀.params ≤ s.params⌝⦄
  mark
  ⦃⇓? m s => ⌜s.Sound ∧ s₀.params ≤ s.params ∧ m.Sound⌝⦄
  := by
  mvcgen [mark] with
  | vc1 hs => exact ⟨hs.1, hs.2, hs.1.scanner, hs.1.pending⟩

/-- Going back keeps what the binder learnt. -/
theorem reset_spec (m : Mark) (s₀ : Reader) :
  ⦃fun s => ⌜s.Sound ∧ s₀.params ≤ s.params ∧ m.Sound⌝⦄
  reset m
  ⦃⇓? _ s => ⌜s.Sound ∧ s₀.params ≤ s.params⌝⦄
  := by
  mvcgen [reset] with
  | vc1 hs _ => exact ⟨⟨hs.1.graph, hs.2.2.1, hs.2.2.2⟩, hs.2.1⟩

theorem binder_spec (s₀ : Reader) :
  ⦃fun s => ⌜s.Sound ∧ s₀.params ≤ s.params⌝⦄
  binder
  ⦃⇓? b s => ⌜s.Sound ∧ s₀.params ≤ s.params ∧ b = s.binder⌝⦄
  := by
  mvcgen [binder] with
  | vc1 hs => exact hs

attribute [local spec] binder_spec

/-! ### Values -/

/-- An expression taken as one value stays writable. -/
theorem scalar_spec (e : Expr) (s₀ : Reader) :
  ⦃fun s => ⌜s.Sound ∧ s₀.params ≤ s.params ∧ e.Writable s.params⌝⦄
  scalar e
  ⦃⇓? r s => ⌜s.Sound ∧ s₀.params ≤ s.params ∧ r.Writable s.params⌝⦄
  := by
  mvcgen [scalar, orFail] with
  | vc3 hs _ _ hok _ hs' =>
    obtain ⟨hsound, hk, rfl⟩ := hs'
    exact ⟨hsound, by omega, writable_toScalar hok (Expr.Writable.mono hk _ hs.2.2)⟩
  all_goals grind

/-- The values an expression stands for are writable when it is. -/
theorem values_spec (e : Expr) (s₀ : Reader) :
  ⦃fun s => ⌜s.Sound ∧ s₀.params ≤ s.params ∧ e.Writable s.params⌝⦄
  values e
  ⦃⇓? vs s => ⌜s.Sound ∧ s₀.params ≤ s.params ∧ ∀ v ∈ vs, v.Writable s.params⌝⦄
  := by
  mvcgen [values, orFail] with
  | vc3 hs _ _ hok _ hs' =>
    obtain ⟨hsound, hk, rfl⟩ := hs'
    exact ⟨hsound, by omega, writable_toValues hok (Expr.Writable.mono hk _ hs.2.2)⟩
  all_goals grind

/-- A block changed into one whose expressions are writable keeps the reader sound. -/
theorem modifyBlock_spec (q : QueryId) (h : Block → Block) (s₀ : Reader) :
  ⦃fun s => ⌜s.Sound ∧ s₀.params ≤ s.params ∧
      ∀ e ∈ (h (s.binder.graph.block q)).expressions, e.Writable s.params⌝⦄
  modifyBlock q h
  ⦃⇓? _ s => ⌜s.Sound ∧ s₀.params ≤ s.params⌝⦄
  := by
  mvcgen [modifyBlock] with
  | vc1 hs _ => exact ⟨⟨hs.1.graph.modifyBlock q h hs.2.2, hs.1.scanner, hs.1.pending⟩, hs.2.1⟩

/-! ### Binding -/

/-- A step of binding keeps a sound reader sound when it keeps the graph sound. -/
theorem bind_spec {α : Type} {m : Binding α} {P : Binder → Prop} {Q : α → Binder → Prop}
    (hm : ∀ b₀ : Binder,
      ⦃fun b => ⌜b.graph.Sound ∧ b₀.graph.arguments.size ≤ b.graph.arguments.size ∧ P b⌝⦄
      m
      ⦃⇓? a b => ⌜b.graph.Sound ∧ b₀.graph.arguments.size ≤ b.graph.arguments.size ∧ Q a b⌝⦄)
    (s₀ : Reader) :
  ⦃fun s => ⌜s.Sound ∧ s₀.params ≤ s.params ∧ P s.binder⌝⦄
  Reading.bind m
  ⦃⇓? a s => ⌜s.Sound ∧ s₀.params ≤ s.params ∧ Q a s.binder⌝⦄
  := by
  mvcgen [Reading.bind, fail, errorAt] with
  | vc1 hs _ _ hrun =>
    obtain ⟨hg, hk, hq⟩ := Triple.run_eq_ok (hm s₀.binder) ⟨hs.1.graph, hs.2.1, hs.2.2⟩ hrun
    exact ⟨⟨hg, hs.1.scanner, hs.1.pending⟩, hk, hq⟩

/-- `bind_spec` for a step that only keeps the graph sound. -/
theorem bind_frame_spec {α : Type} {m : Binding α}
    (hm : ∀ b₀ : Binder,
      ⦃fun b => ⌜b.graph.Sound ∧ b₀.graph.arguments.size ≤ b.graph.arguments.size⌝⦄
      m
      ⦃⇓? _ b => ⌜b.graph.Sound ∧ b₀.graph.arguments.size ≤ b.graph.arguments.size⌝⦄)
    (s₀ : Reader) :
  ⦃fun s => ⌜s.Sound ∧ s₀.params ≤ s.params⌝⦄
  Reading.bind m
  ⦃⇓? _ s => ⌜s.Sound ∧ s₀.params ≤ s.params⌝⦄
  := by
  mvcgen [Reading.bind, fail, errorAt] with
  | vc1 hs _ _ hrun =>
    obtain ⟨hg, hk⟩ := Triple.run_eq_ok (hm s₀.binder) ⟨hs.1.graph, hs.2⟩ hrun
    exact ⟨⟨hg, hs.1.scanner, hs.1.pending⟩, hk⟩

/-! ### The steps of binding the grammar runs -/

theorem bind_newQuery_spec (parent : Option QueryId) (body : Body) (s₀ : Reader) :
  ⦃fun s => ⌜s.Sound ∧ s₀.params ≤ s.params ∧ ∀ e ∈ body.expressions, e.Writable s.params⌝⦄
  Reading.bind (Binding.newQuery parent body)
  ⦃⇓? _ s => ⌜s.Sound ∧ s₀.params ≤ s.params ∧ True⌝⦄
  := @bind_spec _ _ (fun b => ∀ e ∈ body.expressions, e.Writable b.graph.arguments.size)
    (fun _ _ => True) (fun b₀ => by mvcgen [Binding.newQuery_spec] with grind) s₀

theorem bind_argument_spec (source : ArgSource) (s₀ : Reader) :
  ⦃fun s => ⌜s.Sound ∧ s₀.params ≤ s.params ∧ True⌝⦄
  Reading.bind (Binding.argument source)
  ⦃⇓? i s => ⌜s.Sound ∧ s₀.params ≤ s.params ∧ i < s.params⌝⦄
  := @bind_spec _ _ (fun _ => True) (fun i b => i < b.graph.arguments.size)
    (fun b₀ => by mvcgen [Binding.argument_spec] with grind) s₀

theorem bind_declareRoot_spec (q : QueryId) (entity : Entity) (aliasName : String)
    (bulk : Bool) (s₀ : Reader) :
  ⦃fun s => ⌜s.Sound ∧ s₀.params ≤ s.params⌝⦄
  Reading.bind (Binding.declareRoot q entity aliasName bulk)
  ⦃⇓? _ s => ⌜s.Sound ∧ s₀.params ≤ s.params⌝⦄
  := bind_frame_spec (Binding.declareRoot_spec q entity aliasName bulk) s₀

theorem bind_navigate_spec (q : QueryId) (parent : FromId) (field : String)
    (semantics : JoinSemantics) (s₀ : Reader) :
  ⦃fun s => ⌜s.Sound ∧ s₀.params ≤ s.params⌝⦄
  Reading.bind (Binding.navigate q parent field semantics)
  ⦃⇓? _ s => ⌜s.Sound ∧ s₀.params ≤ s.params⌝⦄
  := bind_frame_spec (Binding.navigate_spec q parent field semantics) s₀

theorem bind_generateAlias_spec (s₀ : Reader) :
  ⦃fun s => ⌜s.Sound ∧ s₀.params ≤ s.params⌝⦄
  Reading.bind Binding.generateAlias
  ⦃⇓? _ s => ⌜s.Sound ∧ s₀.params ≤ s.params⌝⦄
  := bind_frame_spec Binding.generateAlias_spec s₀

theorem bind_declarePath_spec (q : QueryId) (parent : FromId) (field aliasName : String)
    (semantics : JoinSemantics) (s₀ : Reader) :
  ⦃fun s => ⌜s.Sound ∧ s₀.params ≤ s.params⌝⦄
  Reading.bind (Binding.declarePath q parent field aliasName semantics)
  ⦃⇓? _ s => ⌜s.Sound ∧ s₀.params ≤ s.params⌝⦄
  := bind_frame_spec (Binding.declarePath_spec q parent field aliasName semantics) s₀

theorem bind_markFetch_spec (f : FromId) (s₀ : Reader) :
  ⦃fun s => ⌜s.Sound ∧ s₀.params ≤ s.params⌝⦄
  Reading.bind (Binding.markFetch f)
  ⦃⇓? _ s => ⌜s.Sound ∧ s₀.params ≤ s.params⌝⦄
  := bind_frame_spec (Binding.markFetch_spec f) s₀

end Reading

end EntityQuery
