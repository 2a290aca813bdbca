import Mathlib
import EntityQuery.Proofs.Token.Prefixes
import EntityQuery.Proofs.Query.Parsed

/-!
# Reading registers the parameters before it

The reader stands at a point of its text: at the token it looked ahead at, or after the token
it took last (`Reader.point`). The graph's parameters are registered as they are read, an
equal one reusing the slot of the first, so in the order of their first occurrence. A reader
`Fits` its text `q` when its scanner is on `q` and its parameters are the distinct parameters
of a stretch of `q` from its start that covers everything before its point (`Registered`).

Taking a token moves the point over that token and over nothing else, and going back to a
mark moves it back. Every step of reading keeps a reader fitting, except one: passing over
the tokens of a select list to find its FROM clause takes no parameter, so the point runs
ahead of the registered parameters until the reader goes back to the start of the block. The
triples of this module say, for each step of reading, how the point moves and what it passes
over, with the reader `s₀` the step starts from as their logical variable, which `mvcgen`
takes to be the reader at the call.
-/

open Std.Do

set_option mvcgen.warning false

namespace EntityQuery

/-! ### Where the reader stands -/

/-- Where a scanner stands with the token it looked ahead at: at that token, or after the
token it took last. -/
def Scanner.point (sc : Scanner) (pending : Option Token) : Nat :=
  if pending.isSome then sc.start else sc.pos

/-- Where the reader stands in its text. -/
def Reader.point (s : Reader) : Nat := s.scanner.point s.pending

/-- Where a mark stands in its text. -/
def Mark.point (m : Mark) : Nat := m.scanner.point m.pending

/-- The text the reader reads. -/
def Reader.text (s : Reader) : String := s.scanner.query

/-- The parameters of the reader's graph, in the order of their slots. -/
def Reader.sources (s : Reader) : List ArgSource :=
  s.binder.graph.arguments.toList.map (·.source)

/-- A scanner on `q` with the token it looked ahead at, if any, scanned on `q` just before. -/
def Scanner.OnTextWith (q : String) (sc : Scanner) (pending : Option Token) : Prop :=
  sc.OnText q ∧ ∀ t, pending = some t → ∃ prev : Scanner, prev.OnText q ∧ prev.next = .ok (t, sc)

/-- A reader whose scanner has scanned its text from the start. -/
def Reader.OnText (s : Reader) : Prop := s.scanner.OnTextWith s.text s.pending

/-- A mark of a scanner that has scanned its text from the start. -/
def Mark.OnText (m : Mark) : Prop := m.scanner.OnTextWith m.scanner.query m.pending

/-- The token the reader takes next: the one it looked ahead at, or the one its scanner
scans. -/
@[grind]
def Reader.NextToken (s : Reader) (t : Token) : Prop :=
  s.pending = some t ∨ s.pending = none ∧ ∃ sc, s.scanner.next = .ok (t, sc)

/-- A scanner with the token it looked ahead at, if any, stands at the start of a SELECT
block: the token it takes next is SELECT or FROM. -/
def Scanner.OpensSelect (sc : Scanner) (pending : Option Token) : Prop :=
  ∀ t, (pending = some t ∨ pending = none ∧ ∃ sc', sc.next = .ok (t, sc')) →
    t = .keyword .select ∨ t = .keyword .from

/-- The reader is at the start of a SELECT block: its next token is SELECT or FROM. -/
def Reader.OpensSelect (s : Reader) : Prop := s.scanner.OpensSelect s.pending

/-- The parameters `sources`, in the order of their slots, are the distinct parameters of a
stretch of `q` from its start that covers `before`, in the order of their first occurrence. -/
def Registered (q : String) (sources before : List ArgSource) : Prop :=
  ∃ P, P <+: textParameters q ∧ before <+: P ∧ sources = P.eraseDups

/-- A reader whose graph has registered the parameters of its text before its point. -/
def Reader.Fits (s : Reader) : Prop :=
  s.OnText ∧ Registered s.text s.sources (parametersBefore s.text s.point)

/-- Every lexeme of `q` that starts from offset `x` up to `y` satisfies `p`. -/
def Only (q : String) (x y : Nat) (p : Lexeme → Prop) : Prop :=
  ∀ l ∈ (scanText q).1, x ≤ l.start → l.start < y → p l

/-- From `s₀` the reader has gone on in the same text to `s`, `δ` parentheses deeper. -/
@[grind]
def Ahead (s₀ s : Reader) (δ : Int) : Prop :=
  s.text = s₀.text ∧ s₀.point ≤ s.point ∧ depthAt s₀.text s.point = depthAt s₀.text s₀.point + δ

/-- `Ahead`, past no parameter and with the same parameters in the graph. -/
@[grind]
def Passes (s₀ s : Reader) (δ : Int) : Prop :=
  Ahead s₀ s δ ∧ parametersBefore s₀.text s.point = parametersBefore s₀.text s₀.point ∧
    s.sources = s₀.sources

/-- From `s₀` the reader has taken the token `t`, and registered no parameter. -/
@[grind]
def Takes (s₀ s : Reader) (t : Token) : Prop :=
  Ahead s₀ s t.nesting ∧
    parametersBefore s₀.text s.point = parametersBefore s₀.text s₀.point ++ t.parameter?.toList ∧
    s.sources = s₀.sources

section Unfolding

variable (s : Reader) (m : Mark)

@[grind =]
theorem Reader.point_eq : s.point = if s.pending.isSome then s.scanner.start else s.scanner.pos :=
  rfl

@[grind =]
theorem Mark.point_eq : m.point = if m.pending.isSome then m.scanner.start else m.scanner.pos :=
  rfl

@[grind =]
theorem Reader.text_eq : s.text = s.scanner.query := rfl

@[grind =]
theorem Reader.sources_eq : s.sources = s.binder.graph.arguments.toList.map (·.source) := rfl

@[grind =]
theorem Reader.onText_iff : s.OnText ↔ s.scanner.OnTextWith s.scanner.query s.pending := Iff.rfl

@[grind =]
theorem Mark.onText_iff : m.OnText ↔ m.scanner.OnTextWith m.scanner.query m.pending := Iff.rfl

@[grind =]
theorem Reader.opensSelect_iff : s.OpensSelect ↔ s.scanner.OpensSelect s.pending := Iff.rfl

@[grind =]
theorem Scanner.opensSelect_some (sc : Scanner) (t : Token) :
  sc.OpensSelect (some t) ↔ t = .keyword .select ∨ t = .keyword .from
  := by
  simp [Scanner.OpensSelect]

/-- The token a reader at the start of a SELECT block takes next. -/
theorem Reader.OpensSelect.next {t : Token} (h : s.OpensSelect) (hnext : s.NextToken t) :
  t = .keyword .select ∨ t = .keyword .from
  := h t hnext

@[grind =]
theorem Reader.fits_iff :
  s.Fits ↔ s.OnText ∧ Registered s.text s.sources (parametersBefore s.text s.point)
  := Iff.rfl

end Unfolding

/-! ### Registered parameters -/

/-- A parameter taken registers a slot unless an equal one has it. -/
def registerSource (sources : List ArgSource) (source : ArgSource) : List ArgSource :=
  if source ∈ sources then sources else sources ++ [source]

theorem eraseDups_append_singleton (P : List ArgSource) (source : ArgSource) :
  (P ++ [source]).eraseDups = registerSource P.eraseDups source
  := by
  rw [List.eraseDups_append, registerSource]
  by_cases h : source ∈ P
  · simp [h, List.mem_eraseDups, List.removeAll]
  · simp [h, List.mem_eraseDups, List.removeAll, List.eraseDups_cons]

namespace Registered

variable {q : String} {S B B' : List ArgSource}

/-- Less of the text is covered by the same stretch. -/
theorem mono (h : Registered q S B) (hB : B' <+: B) : Registered q S B' := by
  obtain ⟨P, hP, hB', rfl⟩ := h
  exact ⟨P, hP, hB.trans hB', rfl⟩

/-- Registering the parameter just taken covers the text up to and with it. -/
theorem register (h : Registered q S B) {source : ArgSource}
    (hnext : B ++ [source] <+: textParameters q) :
  Registered q (registerSource S source) (B ++ [source])
  := by
  obtain ⟨P, hP, hB, rfl⟩ := h
  by_cases hcovers : B ++ [source] <+: P
  · refine ⟨P, hP, hcovers, ?_⟩
    rw [registerSource, if_pos (List.mem_eraseDups.mpr (hcovers.mem (by simp)))]
  · have hshort := (List.prefix_or_prefix_of_prefix hnext hP).resolve_left hcovers
    obtain rfl : P = B := by
      have hle := hshort.length_le
      simp only [List.length_append, List.length_singleton] at hle
      rcases Nat.lt_or_ge P.length (B.length + 1) with hlt | hge
      · exact (hB.eq_of_length (Nat.le_antisymm hB.length_le (by omega))).symm
      · have hfull : P = B ++ [source] :=
          hshort.eq_of_length (by simp only [List.length_append, List.length_singleton]; omega)
        exact absurd (by rw [hfull]) hcovers
    exact ⟨P ++ [source], hnext, List.prefix_refl _, (eraseDups_append_singleton P source).symm⟩

/-- Registered parameters that cover the whole text are its distinct parameters. -/
theorem eq_of_text (h : Registered q S (textParameters q)) : S = (textParameters q).eraseDups := by
  obtain ⟨P, hP, hB, rfl⟩ := h
  rw [List.IsPrefix.eq_of_length hP (Nat.le_antisymm hP.length_le hB.length_le)]

end Registered

/-! ### The text between two points -/

section Between

variable {q : String} {x y z : Nat} {p p' : Lexeme → Prop}

theorem Only.nil : Only q x x p :=
  fun _ _ hx hy => absurd (Nat.lt_of_lt_of_le hy hx) (Nat.lt_irrefl _)

theorem Only.trans (hxy : Only q x y p) (hyz : Only q y z p) : Only q x z p := by
  intro l hl hx hz
  by_cases hy : l.start < y
  · exact hxy l hl hx hy
  · exact hyz l hl (Nat.le_of_not_lt hy) hz

theorem Only.mono (h : Only q x y p) (hp : ∀ l, p l → p' l) : Only q x y p' :=
  fun l hl hx hy => hp l (h l hl hx hy)

/-- What starts between two offsets is what the text before the second adds to the text
before the first. -/
theorem Only.of_lexemesBefore {ls : List Lexeme} (h : lexemesBefore q y = lexemesBefore q x ++ ls) :
  Only q x y (· ∈ ls)
  := by
  intro l hl hx hy
  have hmem : l ∈ lexemesBefore q y := List.mem_filter.mpr ⟨hl, by simpa using hy⟩
  rw [h, List.mem_append] at hmem
  rcases hmem with hmem | hmem
  · have := (List.mem_filter.mp hmem).2
    simp only [decide_eq_true_eq] at this
    omega
  · exact hmem

/-- Taking the token `t` that starts at `st`, with the same text before `x` and `st`: the point
passes over that token only. -/
theorem takes_of_lexemesBefore {st : Nat} {t : Token} {text : String}
    (hbefore : lexemesBefore q st = lexemesBefore q x)
    (htaken : lexemesBefore q y = lexemesBefore q st ++ if t = .eof then [] else [⟨t, st, text⟩]) :
  parametersBefore q y = parametersBefore q x ++ t.parameter?.toList ∧
    depthAt q y = depthAt q x + t.nesting ∧
    Only q x y (fun l => l.token = t ∧ depthAt q l.start = depthAt q x)
  := by
  rw [hbefore] at htaken
  refine ⟨?_, ?_, ?_⟩
  · rw [parametersBefore, parametersBefore, htaken, List.filterMap_append]
    by_cases ht : t = .eof
    · subst ht
      simp [Token.parameter?]
    · simp only [ht, if_false, List.filterMap_cons, List.filterMap_nil]
      cases t.parameter? <;> rfl
  · rw [depthAt, depthAt, htaken, List.map_append, List.sum_append]
    by_cases ht : t = .eof
    · subst ht
      simp [Token.nesting]
    · simp [ht]
  · refine (Only.of_lexemesBefore htaken).mono fun l hl => ?_
    by_cases ht : t = .eof
    · simp [ht] at hl
    · simp only [ht, if_false, List.mem_singleton] at hl
      subst hl
      exact ⟨rfl, by rw [depthAt, depthAt, hbefore]⟩

end Between

namespace Scanner.OnTextWith

variable {q : String} {sc sc' : Scanner} {t : Token}

/-- The token looked ahead at is the lexeme of the text where the scanner stands. -/
theorem mem_scanText (h : sc.OnTextWith q (some t)) : ⟨t, sc.start, sc.lexeme⟩ ∈ (scanText q).1 := by
  obtain ⟨prev, hprev, hnext⟩ := h.2 t rfl
  exact hprev.next_mem_scanText hnext

/-- Looking ahead stops at the start of the next token, past no lexeme. -/
theorem peek (h : sc.OnTextWith q none) (hnext : sc.next = .ok (t, sc')) :
  sc'.OnTextWith q (some t) ∧ sc.pos ≤ sc'.start ∧ lexemesBefore q sc'.start = lexemesBefore q sc.pos
  := ⟨⟨h.1.tail ⟨t, hnext⟩, fun _ ht => ⟨sc, h.1, Option.some.inj ht ▸ hnext⟩⟩,
    (next_offsets hnext).1, (h.1.lexemesBefore_next hnext).1⟩

/-- Taking the token looked ahead at passes over it. -/
theorem take (h : sc.OnTextWith q (some t)) :
  sc.OnTextWith q none ∧ sc.start ≤ sc.pos ∧
    lexemesBefore q sc.pos =
      lexemesBefore q sc.start ++ if t = .eof then [] else [⟨t, sc.start, sc.lexeme⟩]
  := by
  obtain ⟨prev, hprev, hnext⟩ := h.2 t rfl
  exact ⟨⟨h.1, fun _ h => nomatch h⟩, (next_offsets hnext).2.1, (hprev.lexemesBefore_next hnext).2⟩

/-- Scanning a token passes over it. -/
theorem scan (h : sc.OnTextWith q none) (hnext : sc.next = .ok (t, sc')) :
  sc'.OnTextWith q none ∧ sc.pos ≤ sc'.start ∧ sc'.start ≤ sc'.pos ∧
    lexemesBefore q sc'.start = lexemesBefore q sc.pos ∧
    lexemesBefore q sc'.pos =
      lexemesBefore q sc'.start ++ if t = .eof then [] else [⟨t, sc'.start, sc'.lexeme⟩]
  := ⟨⟨h.1.tail ⟨t, hnext⟩, fun _ h => nomatch h⟩, (next_offsets hnext).1, (next_offsets hnext).2.1,
    h.1.lexemesBefore_next hnext⟩

end Scanner.OnTextWith

/-! ### Moves of the reader -/

/-- From `s₀` the reader has kept its scanner, the token it looked ahead at and its graph's
parameters. -/
@[grind]
def Stays (s₀ s : Reader) : Prop :=
  s.scanner = s₀.scanner ∧ s.pending = s₀.pending ∧ s.sources = s₀.sources

@[grind =]
theorem Token.isKeyword_iff (t : Token) (k : Keyword) : t.isKeyword k = true ↔ t = .keyword k := by
  simp [Token.isKeyword]

theorem Passes.rfl {s : Reader} : Passes s s 0 := by
  simp [Passes, Ahead]

namespace Reader

variable {s : Reader} {t : Token} {sc : Scanner}

/-- Looking ahead at the token the scanner scans next passes over no lexeme. -/
theorem OnText.peeked (h : s.OnText) (hnone : s.pending = none)
    (hnext : s.scanner.next = .ok (t, sc)) (s' : Reader) (hsc : s'.scanner = sc)
    (hp : s'.pending = some t) (hsrc : s'.sources = s.sources) :
  s'.OnText ∧ Passes s s' 0 ∧ Only s.text s.point s'.point (fun _ => False)
  := by
  rw [onText_iff, hnone] at h
  obtain ⟨hon, hle, heq⟩ := h.peek hnext
  have hquery : s'.scanner.query = s.scanner.query := by rw [hsc, Scanner.query_next hnext]
  have hpoint : s'.point = sc.start := by simp [point_eq, hp, hsc]
  have hpoint₀ : s.point = s.scanner.pos := by simp [point_eq, hnone]
  have hnil : lexemesBefore s.scanner.query sc.start =
      lexemesBefore s.scanner.query s.scanner.pos ++ ([] : List Lexeme) := by
    rw [heq, List.append_nil]
  refine ⟨?_, ⟨⟨hquery, ?_, ?_⟩, ?_, hsrc⟩, ?_⟩
  · rw [onText_iff, hsc, hp, Scanner.query_next hnext]
    exact hon
  · rw [hpoint, hpoint₀]
    exact hle
  · rw [hpoint, hpoint₀, text_eq, depthAt, depthAt, heq, add_zero]
  · rw [hpoint, hpoint₀, text_eq, parametersBefore, parametersBefore, heq]
  · rw [hpoint, hpoint₀, text_eq]
    exact (Only.of_lexemesBefore hnil).mono (by simp)

/-- Taking the token looked ahead at passes over that token. -/
theorem OnText.taken (h : s.OnText) (hs : s.pending = some t) (s' : Reader)
    (hsc : s'.scanner = s.scanner) (hp : s'.pending = none) (hsrc : s'.sources = s.sources) :
  s'.OnText ∧ Takes s s' t ∧
    Only s.text s.point s'.point (fun l => l.token = t ∧ depthAt s.text l.start = depthAt s.text s.point)
  := by
  rw [onText_iff, hs] at h
  obtain ⟨hon, hle, heq⟩ := h.take
  obtain ⟨hpb, hdepth, honly⟩ := takes_of_lexemesBefore rfl heq
  have hpoint : s'.point = s.scanner.pos := by simp [point_eq, hp, hsc]
  have hpoint₀ : s.point = s.scanner.start := by simp [point_eq, hs]
  refine ⟨?_, ⟨⟨by rw [text_eq, text_eq, hsc], ?_, ?_⟩, ?_, hsrc⟩, ?_⟩
  · rw [onText_iff, hsc, hp]
    exact hon
  · rw [hpoint, hpoint₀]
    exact hle
  all_goals rw [hpoint, hpoint₀, text_eq]; assumption

/-- Scanning a token with none looked ahead at passes over that token. -/
theorem OnText.scanned (h : s.OnText) (hnone : s.pending = none)
    (hnext : s.scanner.next = .ok (t, sc)) (s' : Reader) (hsc : s'.scanner = sc)
    (hp : s'.pending = none) (hsrc : s'.sources = s.sources) :
  s'.OnText ∧ Takes s s' t ∧
    Only s.text s.point s'.point (fun l => l.token = t ∧ depthAt s.text l.start = depthAt s.text s.point)
  := by
  rw [onText_iff, hnone] at h
  obtain ⟨hon, hle, hle', hbefore, heq⟩ := h.scan hnext
  obtain ⟨hpb, hdepth, honly⟩ := takes_of_lexemesBefore hbefore heq
  have hquery : s'.scanner.query = s.scanner.query := by rw [hsc, Scanner.query_next hnext]
  have hpoint : s'.point = sc.pos := by simp [point_eq, hp, hsc]
  have hpoint₀ : s.point = s.scanner.pos := by simp [point_eq, hnone]
  refine ⟨?_, ⟨⟨hquery, ?_, ?_⟩, ?_, hsrc⟩, ?_⟩
  · rw [onText_iff, hsc, hp, Scanner.query_next hnext]
    exact hon
  · rw [hpoint, hpoint₀]
    omega
  all_goals rw [hpoint, hpoint₀, text_eq]; assumption

end Reader

namespace Reader.Fits

variable {s s' : Reader} {t : Token} {δ : Int}

/-- Passing over no parameter keeps a reader fitting. -/
theorem of_passes (h : s.Fits) (hp : Passes s s' δ) (hon : s'.OnText) : s'.Fits := by
  obtain ⟨-, hreg⟩ := h
  obtain ⟨⟨htext, -, -⟩, hparams, hsrc⟩ := hp
  refine ⟨hon, ?_⟩
  rw [htext, hsrc, hparams]
  exact hreg

/-- Taking a token that is no parameter keeps a reader fitting. -/
theorem of_takes (h : s.Fits) (ht : Takes s s' t) (hnone : t.parameter? = none)
    (hon : s'.OnText) :
  s'.Fits
  := by
  obtain ⟨-, hreg⟩ := h
  obtain ⟨⟨htext, -, -⟩, hparams, hsrc⟩ := ht
  refine ⟨hon, ?_⟩
  rw [htext, hsrc, hparams, hnone, Option.toList_none, List.append_nil]
  exact hreg

theorem of_stays (h : s.Fits) (hs : Stays s s') : s'.Fits := by
  obtain ⟨hon, hreg⟩ := h
  obtain ⟨hsc, hpending, hsrc⟩ := hs
  have hpoint : s'.point = s.point := by rw [point_eq, point_eq, hsc, hpending]
  refine ⟨?_, ?_⟩
  · rw [onText_iff, hsc, hpending]
    exact hon
  · rw [text_eq, hsc, hsrc, hpoint]
    exact hreg

end Reader.Fits

/-! ### Steps of binding keep the parameters -/

namespace Binding

/-- A step of binding that leaves the graph's parameters as they are. -/
abbrev KeepsArguments {α : Type} (m : Binding α) : Prop :=
  ∀ b₀ : Binder,
    ⦃fun b => ⌜b.graph.arguments = b₀.graph.arguments⌝⦄
    m
    ⦃⇓? _ b => ⌜b.graph.arguments = b₀.graph.arguments⌝⦄

theorem newQuery_keeps (parent : Option QueryId) (body : Body) (b₀ : Binder) :
  ⦃fun b => ⌜b.graph.arguments = b₀.graph.arguments⌝⦄
  newQuery parent body
  ⦃⇓? _ b => ⌜b.graph.arguments = b₀.graph.arguments⌝⦄
  := by
  mvcgen [newQuery]

theorem generateAlias_keeps (b₀ : Binder) :
  ⦃fun b => ⌜b.graph.arguments = b₀.graph.arguments⌝⦄
  generateAlias
  ⦃⇓? _ b => ⌜b.graph.arguments = b₀.graph.arguments⌝⦄
  := by
  mvcgen [generateAlias]

theorem resolveEntity_keeps (name : String) (b₀ : Binder) :
  ⦃fun b => ⌜b.graph.arguments = b₀.graph.arguments⌝⦄
  resolveEntity name
  ⦃⇓? _ b => ⌜b.graph.arguments = b₀.graph.arguments⌝⦄
  := by
  mvcgen [resolveEntity]

theorem checkAliasFree_keeps (q : QueryId) (aliasName : String) (b₀ : Binder) :
  ⦃fun b => ⌜b.graph.arguments = b₀.graph.arguments⌝⦄
  checkAliasFree q aliasName
  ⦃⇓? _ b => ⌜b.graph.arguments = b₀.graph.arguments⌝⦄
  := by
  mvcgen [checkAliasFree]

theorem itemEntity_keeps (f : FromId) (field : String) (b₀ : Binder) :
  ⦃fun b => ⌜b.graph.arguments = b₀.graph.arguments⌝⦄
  itemEntity f field
  ⦃⇓? _ b => ⌜b.graph.arguments = b₀.graph.arguments⌝⦄
  := by
  mvcgen [itemEntity]

theorem fieldOf_keeps (e : Entity) (field : String) (b₀ : Binder) :
  ⦃fun b => ⌜b.graph.arguments = b₀.graph.arguments⌝⦄
  fieldOf e field
  ⦃⇓? _ b => ⌜b.graph.arguments = b₀.graph.arguments⌝⦄
  := by
  mvcgen [fieldOf]

theorem pushItem_keeps (q : QueryId) (aliasName : String) (table : Table) (entity : Option Entity)
    (join : Option Join) (semantics : JoinSemantics) (b₀ : Binder) :
  ⦃fun b => ⌜b.graph.arguments = b₀.graph.arguments⌝⦄
  pushItem q aliasName table entity join semantics
  ⦃⇓? _ b => ⌜b.graph.arguments = b₀.graph.arguments⌝⦄
  := by
  mvcgen [pushItem]

/- Each triple is a spec for `mvcgen` from the first proof that builds on it, which then starts
once the triple is checked. -/
attribute [local spec] checkAliasFree_keeps pushItem_keeps

theorem declareRoot_keeps (q : QueryId) (entity : Entity) (aliasName : String) (bulk : Bool)
    (b₀ : Binder) :
  ⦃fun b => ⌜b.graph.arguments = b₀.graph.arguments⌝⦄
  declareRoot q entity aliasName bulk
  ⦃⇓? _ b => ⌜b.graph.arguments = b₀.graph.arguments⌝⦄
  := by
  mvcgen [declareRoot, checkAliasFree_keeps, pushItem_keeps]
  with grind [Graph.arguments_modifyBlock, Graph.arguments_modifyItem]

theorem addJoined_keeps (q : QueryId) (aliasName : String) (entity : Option Entity) (table : Table)
    (parent : FromId) (pairs : List (String × String)) (kind : JoinKind)
    (semantics : JoinSemantics) (b₀ : Binder) :
  ⦃fun b => ⌜b.graph.arguments = b₀.graph.arguments⌝⦄
  addJoined q aliasName entity table parent pairs kind semantics
  ⦃⇓? _ b => ⌜b.graph.arguments = b₀.graph.arguments⌝⦄
  := by
  mvcgen [addJoined, pushItem_keeps]

attribute [local spec] resolveEntity_keeps generateAlias_keeps addJoined_keeps

theorem joinToOne_keeps (q : QueryId) (parent : FromId) (entity : Entity) (field target : String)
    (columns : List String) (semantics : JoinSemantics) (aliasName : Option String)
    (b₀ : Binder) :
  ⦃fun b => ⌜b.graph.arguments = b₀.graph.arguments⌝⦄
  joinToOne q parent entity field target columns semantics aliasName
  ⦃⇓? _ b => ⌜b.graph.arguments = b₀.graph.arguments⌝⦄
  := by
  cases aliasName <;>
    mvcgen [joinToOne, resolveEntity_keeps, generateAlias_keeps, addJoined_keeps]
  all_goals grind

theorem collection_keeps (parent : FromId) (entity : Entity) (field : String) (kind : FieldKind)
    (b₀ : Binder) :
  ⦃fun b => ⌜b.graph.arguments = b₀.graph.arguments⌝⦄
  collection parent entity field kind
  ⦃⇓? _ b => ⌜b.graph.arguments = b₀.graph.arguments⌝⦄
  := by
  mvcgen [collection, resolveEntity_keeps, generateAlias_keeps] with grind

attribute [local spec] itemEntity_keeps fieldOf_keeps joinToOne_keeps collection_keeps

theorem navigate_keeps (q : QueryId) (parent : FromId) (field : String)
    (semantics : JoinSemantics) (b₀ : Binder) :
  ⦃fun b => ⌜b.graph.arguments = b₀.graph.arguments⌝⦄
  navigate q parent field semantics
  ⦃⇓? _ b => ⌜b.graph.arguments = b₀.graph.arguments⌝⦄
  := by
  mvcgen [navigate, itemEntity_keeps, fieldOf_keeps, joinToOne_keeps, collection_keeps]
  with grind

theorem declarePath_keeps (q : QueryId) (parent : FromId) (field aliasName : String)
    (semantics : JoinSemantics) (b₀ : Binder) :
  ⦃fun b => ⌜b.graph.arguments = b₀.graph.arguments⌝⦄
  declarePath q parent field aliasName semantics
  ⦃⇓? _ b => ⌜b.graph.arguments = b₀.graph.arguments⌝⦄
  := by
  mvcgen [declarePath, checkAliasFree_keeps, itemEntity_keeps, fieldOf_keeps, joinToOne_keeps,
    resolveEntity_keeps, addJoined_keeps, generateAlias_keeps]
  with grind

theorem markFetch_keeps (f : FromId) (b₀ : Binder) :
  ⦃fun b => ⌜b.graph.arguments = b₀.graph.arguments⌝⦄
  markFetch f
  ⦃⇓? _ b => ⌜b.graph.arguments = b₀.graph.arguments⌝⦄
  := by
  mvcgen [markFetch]

/-- A parameter gets the slot of an equal one, or a new slot at the end. -/
theorem argument_registers (source : ArgSource) (b₀ : Binder) :
  ⦃fun b => ⌜b.graph.arguments = b₀.graph.arguments⌝⦄
  argument source
  ⦃⇓? _ b => ⌜b.graph.arguments.toList.map (·.source) =
      registerSource (b₀.graph.arguments.toList.map (·.source)) source⌝⦄
  := by
  mvcgen [argument] with
  | vc2 hargs _ _ _ hfound =>
    obtain ⟨hlt, hsource, -⟩ := Array.findIdx?_eq_some_iff_getElem.mp hfound
    have hmem : source ∈ b₀.graph.arguments.toList.map (·.source) := by
      rw [← hargs]
      exact List.mem_map.mpr ⟨_, Array.mem_toList_iff.mpr (Array.getElem_mem hlt),
        beq_iff_eq.mp hsource⟩
    rw [hargs, registerSource, if_pos hmem]
  | vc3 hargs _ _ hnone t =>
    have hnot : source ∉ b₀.graph.arguments.toList.map (·.source) := by
      rw [← hargs, List.mem_map]
      rintro ⟨a, ha, rfl⟩
      have := Array.findIdx?_eq_none_iff.mp hnone a (Array.mem_toList_iff.mp ha)
      simp at this
    simp only [t, Array.toList_push, List.map_append, List.map_cons, List.map_nil, hargs,
      registerSource, if_neg hnot]

end Binding

/-! ### Steps of reading -/

namespace Reading

variable (s₀ : Reader)

/-- Looking ahead moves the point to the next token, past no lexeme. -/
theorem peek_next :
  ⦃fun s => ⌜s₀ = s ∧ s.OnText⌝⦄
  peek
  ⦃⇓? t s => ⌜s.OnText ∧ Passes s₀ s 0 ∧ s.pending = some t ∧ s₀.NextToken t ∧
      Only s₀.text s₀.point s.point (fun _ => False)⌝⦄
  := by
  mvcgen [peek, scan] with
  | vc1 hs _ hpending =>
    obtain ⟨rfl, hon⟩ := hs
    exact ⟨hon, Passes.rfl, hpending, .inl hpending, Only.nil⟩
  | vc2 hs hnone t sc hnext st =>
    obtain ⟨rfl, hon⟩ := hs
    obtain ⟨hon', hpasses, honly⟩ := hon.peeked hnone hnext st.2 rfl rfl rfl
    exact ⟨hon', hpasses, rfl, .inr ⟨hnone, sc, hnext⟩, honly⟩

/-- Taking a token passes over it and over nothing else. -/
theorem next_taken :
  ⦃fun s => ⌜s₀ = s ∧ s.OnText⌝⦄
  next
  ⦃⇓? t s => ⌜s.OnText ∧ Takes s₀ s t ∧ s.pending = none ∧ s₀.NextToken t ∧
      Only s₀.text s₀.point s.point
        (fun l => l.token = t ∧ depthAt s₀.text l.start = depthAt s₀.text s₀.point)⌝⦄
  := by
  mvcgen [next, scan] with
  | vc1 hs _ t hpending _ st =>
    obtain ⟨rfl, hon⟩ := hs
    obtain ⟨hon', htakes, honly⟩ := hon.taken hpending st.2 rfl rfl rfl
    exact ⟨hon', htakes, rfl, .inl hpending, honly⟩
  | vc2 hs _ hnone t sc hnext st =>
    obtain ⟨rfl, hon⟩ := hs
    obtain ⟨hon', htakes, honly⟩ := hon.scanned hnone hnext st.2 rfl hnone rfl
    exact ⟨hon', htakes, hnone, .inr ⟨hnone, sc, hnext⟩, honly⟩

/- The triples of `peek` and `next` are checked here, before the proofs that build on them; each
function has two, so neither is made a spec for the rest of the module. -/
section
attribute [local spec] peek_next next_taken
end

theorem peek_passes :
  ⦃fun s => ⌜s.OnText ∧ Passes s₀ s 0⌝⦄
  peek
  ⦃⇓? t s => ⌜s.OnText ∧ Passes s₀ s 0 ∧ s.pending = some t⌝⦄
  := by
  mvcgen [peek_next] with grind

theorem next_takes :
  ⦃fun s => ⌜s.OnText ∧ Passes s₀ s 0⌝⦄
  next
  ⦃⇓? t s => ⌜s.OnText ∧ Takes s₀ s t ∧ s.pending = none⌝⦄
  := by
  mvcgen [next_taken] with grind

section
attribute [local spec] peek_passes next_takes
end

/-- Taking the token looked ahead at, if any, passes over it and over nothing else. -/
theorem skip_taken :
  ⦃fun s => ⌜s₀ = s ∧ s.OnText⌝⦄
  skip
  ⦃⇓? _ s => ⌜s.OnText ∧ s.pending = none ∧ ∃ t, s₀.NextToken t ∧ Takes s₀ s t ∧
      Only s₀.text s₀.point s.point
        (fun l => l.token = t ∧ depthAt s₀.text l.start = depthAt s₀.text s₀.point)⌝⦄
  := by
  mvcgen [skip, next_taken] with grind

theorem check_passes (t : Token) :
  ⦃fun s => ⌜s.OnText ∧ Passes s₀ s 0⌝⦄
  check t
  ⦃⇓? b s => ⌜s.OnText ∧ Passes s₀ s 0 ∧ ∃ t', s.pending = some t' ∧ (b = true ↔ t' = t)⌝⦄
  := by
  mvcgen [check, peek_passes] with grind

theorem checkKeyword_passes (k : Keyword) :
  ⦃fun s => ⌜s.OnText ∧ Passes s₀ s 0⌝⦄
  checkKeyword k
  ⦃⇓? b s => ⌜s.OnText ∧ Passes s₀ s 0 ∧
      ∃ t', s.pending = some t' ∧ (b = true ↔ t' = .keyword k)⌝⦄
  := by
  mvcgen [checkKeyword, peek_passes] with grind

/-- `checkKeyword_passes`, with the token looked at the one the reader took next. -/
theorem checkKeyword_next (k : Keyword) :
  ⦃fun s => ⌜s₀ = s ∧ s.OnText⌝⦄
  checkKeyword k
  ⦃⇓? b s => ⌜s.OnText ∧ Passes s₀ s 0 ∧
      ∃ t', s.pending = some t' ∧ s₀.NextToken t' ∧ (b = true ↔ t' = .keyword k)⌝⦄
  := by
  mvcgen [checkKeyword, peek_next] with grind

attribute [local spec] check_passes skip_taken

section
attribute [local spec] checkKeyword_passes checkKeyword_next
end

theorem eat_takes (t : Token) :
  ⦃fun s => ⌜s.OnText ∧ Passes s₀ s 0⌝⦄
  eat t
  ⦃⇓? b s => ⌜s.OnText ∧ (b = true → Takes s₀ s t ∧ s.pending = none) ∧
      (b = false → Passes s₀ s 0 ∧ ∃ t', s.pending = some t' ∧ t' ≠ t)⌝⦄
  := by
  mvcgen [eat, check_passes, skip_taken] with grind

theorem eatKeyword_takes (k : Keyword) :
  ⦃fun s => ⌜s.OnText ∧ Passes s₀ s 0⌝⦄
  eatKeyword k
  ⦃⇓? b s => ⌜s.OnText ∧ (b = true → Takes s₀ s (.keyword k) ∧ s.pending = none) ∧
      (b = false → Passes s₀ s 0 ∧ ∃ t', s.pending = some t' ∧ t' ≠ .keyword k)⌝⦄
  := by
  mvcgen [eatKeyword, checkKeyword_passes, skip_taken] with grind

/-- `eatKeyword_takes`, with the token left the one the reader took next. -/
theorem eatKeyword_next (k : Keyword) :
  ⦃fun s => ⌜s₀ = s ∧ s.OnText⌝⦄
  eatKeyword k
  ⦃⇓? b s => ⌜s.OnText ∧ (b = true → Takes s₀ s (.keyword k) ∧ s.pending = none) ∧
      (b = false → Passes s₀ s 0 ∧ ∃ t', s.pending = some t' ∧ s₀.NextToken t' ∧
        t' ≠ .keyword k)⌝⦄
  := by
  mvcgen [eatKeyword, checkKeyword_next, skip_taken] with grind

theorem expect_takes (t : Token) :
  ⦃fun s => ⌜s.OnText ∧ Passes s₀ s 0⌝⦄
  expect t
  ⦃⇓? _ s => ⌜s.OnText ∧ Takes s₀ s t ∧ s.pending = none⌝⦄
  := by
  mvcgen [expect, next_takes, unexpected, fail_spec] with grind

theorem expectKeyword_takes (k : Keyword) :
  ⦃fun s => ⌜s.OnText ∧ Passes s₀ s 0⌝⦄
  expectKeyword k
  ⦃⇓? _ s => ⌜s.OnText ∧ Takes s₀ s (.keyword k) ∧ s.pending = none⌝⦄
  := by
  mvcgen [expectKeyword, next_takes, unexpected, fail_spec] with grind

theorem expectIdentifier_takes :
  ⦃fun s => ⌜s.OnText ∧ Passes s₀ s 0⌝⦄
  expectIdentifier
  ⦃⇓? name s => ⌜s.OnText ∧ Takes s₀ s (.identifier name) ∧ s.pending = none⌝⦄
  := by
  mvcgen [expectIdentifier, next_takes, unexpected, fail_spec] with grind

/-- A name taken is an identifier or a keyword, so no parameter and no parenthesis. -/
theorem word_passes (expected : String) :
  ⦃fun s => ⌜s.OnText ∧ Passes s₀ s 0⌝⦄
  word expected
  ⦃⇓? _ s => ⌜s.OnText ∧ Passes s₀ s 0 ∧ s.pending = none⌝⦄
  := by
  mvcgen [word, next_takes, unexpected, fail_spec] with grind

attribute [local spec] word_passes

theorem fieldName_passes :
  ⦃fun s => ⌜s.OnText ∧ Passes s₀ s 0⌝⦄
  fieldName
  ⦃⇓? _ s => ⌜s.OnText ∧ Passes s₀ s 0 ∧ s.pending = none⌝⦄
  := by
  mvcgen [fieldName, word_passes]

theorem expectEnd_passes :
  ⦃fun s => ⌜s.OnText ∧ Passes s₀ s 0⌝⦄
  expectEnd
  ⦃⇓? _ s => ⌜s.OnText ∧ Passes s₀ s 0 ∧ s.pending = some .eof⌝⦄
  := by
  mvcgen [expectEnd, peek_passes, unexpected, fail_spec] with grind

/-- A step of binding that keeps the graph's parameters changes nothing the reader reads by. -/
theorem bind_stays {α : Type} {m : Binding α}
    (hm : ∀ b₀ : Binder,
      ⦃fun b => ⌜b.graph.arguments = b₀.graph.arguments⌝⦄
      m
      ⦃⇓? _ b => ⌜b.graph.arguments = b₀.graph.arguments⌝⦄) :
  ⦃fun s => ⌜Stays s₀ s⌝⦄ Reading.bind m ⦃⇓? _ s => ⌜Stays s₀ s⌝⦄
  := by
  mvcgen [Reading.bind, fail, errorAt] with
  | vc1 hs _ _ _ hrun =>
    have hargs := Triple.run_eq_ok (hm _) rfl hrun
    grind

/-- Binding a parameter registers it, and changes nothing else the reader reads by. -/
theorem bind_argument_registers (source : ArgSource) :
  ⦃fun s => ⌜Stays s₀ s⌝⦄
  Reading.bind (Binding.argument source)
  ⦃⇓? _ s => ⌜s.scanner = s₀.scanner ∧ s.pending = s₀.pending ∧
      s.sources = registerSource s₀.sources source⌝⦄
  := by
  mvcgen [Reading.bind, fail, errorAt] with
  | vc1 hs _ _ _ hrun =>
    have hsources := Triple.run_eq_ok (Binding.argument_registers source _) rfl hrun
    grind

theorem scalar_stays (e : Expr) :
  ⦃fun s => ⌜Stays s₀ s⌝⦄ scalar e ⦃⇓? _ s => ⌜Stays s₀ s⌝⦄
  := by
  mvcgen [scalar, binder, orFail, fail_spec] with grind

theorem values_stays (e : Expr) :
  ⦃fun s => ⌜Stays s₀ s⌝⦄ values e ⦃⇓? _ s => ⌜Stays s₀ s⌝⦄
  := by
  mvcgen [values, binder, orFail, fail_spec] with grind

theorem modifyBlock_stays (q : QueryId) (h : Block → Block) :
  ⦃fun s => ⌜Stays s₀ s⌝⦄ modifyBlock q h ⦃⇓? _ s => ⌜Stays s₀ s⌝⦄
  := by
  mvcgen [modifyBlock]

/-- Going back to a mark puts the reader where the mark is, and keeps everything else. -/
theorem reset_goes (m : Mark) :
  ⦃fun s => ⌜s₀ = s⌝⦄
  reset m
  ⦃⇓? _ s => ⌜s = { s₀ with scanner := m.scanner, pending := m.pending }⌝⦄
  := by
  mvcgen [reset] with grind

theorem bind_newQuery_stays (parent : Option QueryId) (body : Body) :
  ⦃fun s => ⌜Stays s₀ s⌝⦄ Reading.bind (Binding.newQuery parent body) ⦃⇓? _ s => ⌜Stays s₀ s⌝⦄
  := bind_stays s₀ (Binding.newQuery_keeps parent body)

theorem bind_declareRoot_stays (q : QueryId) (entity : Entity) (aliasName : String) (bulk : Bool) :
  ⦃fun s => ⌜Stays s₀ s⌝⦄
  Reading.bind (Binding.declareRoot q entity aliasName bulk)
  ⦃⇓? _ s => ⌜Stays s₀ s⌝⦄
  := bind_stays s₀ (Binding.declareRoot_keeps q entity aliasName bulk)

theorem bind_navigate_stays (q : QueryId) (parent : FromId) (field : String)
    (semantics : JoinSemantics) :
  ⦃fun s => ⌜Stays s₀ s⌝⦄
  Reading.bind (Binding.navigate q parent field semantics)
  ⦃⇓? _ s => ⌜Stays s₀ s⌝⦄
  := bind_stays s₀ (Binding.navigate_keeps q parent field semantics)

theorem bind_generateAlias_stays :
  ⦃fun s => ⌜Stays s₀ s⌝⦄ Reading.bind Binding.generateAlias ⦃⇓? _ s => ⌜Stays s₀ s⌝⦄
  := bind_stays s₀ Binding.generateAlias_keeps

theorem bind_declarePath_stays (q : QueryId) (parent : FromId) (field aliasName : String)
    (semantics : JoinSemantics) :
  ⦃fun s => ⌜Stays s₀ s⌝⦄
  Reading.bind (Binding.declarePath q parent field aliasName semantics)
  ⦃⇓? _ s => ⌜Stays s₀ s⌝⦄
  := bind_stays s₀ (Binding.declarePath_keeps q parent field aliasName semantics)

theorem bind_markFetch_stays (f : FromId) :
  ⦃fun s => ⌜Stays s₀ s⌝⦄ Reading.bind (Binding.markFetch f) ⦃⇓? _ s => ⌜Stays s₀ s⌝⦄
  := bind_stays s₀ (Binding.markFetch_keeps f)

end Reading

/-! ### The FROM clause passes over no parameter -/

namespace Grammar

open Reading

variable (s₀ : Reader)

attribute [local spec] eat_takes fieldName_passes

theorem entityName_go_passes (fuel : Nat) (name tail : String) :
  ⦃fun s => ⌜s.OnText ∧ Passes s₀ s 0⌝⦄
  entityName.go fuel name tail
  ⦃⇓? _ s => ⌜s.OnText ∧ Passes s₀ s 0⌝⦄
  := by
  induction fuel generalizing name tail with
  | zero =>
    mvcgen [entityName.go, fail_spec]
    grind
  | succ n ih => mvcgen [entityName.go, binder, eat_takes, fail_spec, fieldName_passes, ih] with grind

attribute [local spec] entityName_go_passes

theorem entityName_passes :
  ⦃fun s => ⌜s.OnText ∧ Passes s₀ s 0⌝⦄ entityName ⦃⇓? _ s => ⌜s.OnText ∧ Passes s₀ s 0⌝⦄
  := by
  mvcgen [entityName, word_passes, budget, entityName_go_passes] with grind

attribute [local spec] eatKeyword_takes expectIdentifier_takes

theorem aliasName_passes :
  ⦃fun s => ⌜s.OnText ∧ Passes s₀ s 0⌝⦄ aliasName? ⦃⇓? _ s => ⌜s.OnText ∧ Passes s₀ s 0⌝⦄
  := by
  mvcgen [aliasName?, eatKeyword_takes, expectIdentifier_takes, peek_passes] with grind

attribute [local spec] entityName_passes aliasName_passes bind_declareRoot_stays

theorem bulkTarget_passes (q : QueryId) :
  ⦃fun s => ⌜s.OnText ∧ Passes s₀ s 0⌝⦄ bulkTarget q ⦃⇓? _ s => ⌜s.OnText ∧ Passes s₀ s 0⌝⦄
  := by
  mvcgen [bulkTarget, entityName_passes, aliasName_passes, bind_declareRoot_stays] with grind

theorem segments_passes (fuel : Nat) (acc : List String) :
  ⦃fun s => ⌜s.OnText ∧ Passes s₀ s 0⌝⦄
  segments fuel acc
  ⦃⇓? _ s => ⌜s.OnText ∧ Passes s₀ s 0⌝⦄
  := by
  induction fuel generalizing acc with
  | zero => mvcgen [segments]
  | succ n ih => mvcgen [segments, eat_takes, fieldName_passes, ih] with grind

attribute [local spec] segments_passes

theorem fromSource_passes (q : QueryId) (isIn : Bool) :
  ⦃fun s => ⌜s.OnText ∧ Passes s₀ s 0⌝⦄
  fromSource q isIn
  ⦃⇓? _ s => ⌜s.OnText ∧ Passes s₀ s 0⌝⦄
  := by
  mvcgen [fromSource, peek_passes, binder, entityName_passes, expectIdentifier_takes, fail_spec,
    segments_passes, budget] with grind

attribute [local spec] bind_navigate_stays bind_generateAlias_stays bind_declarePath_stays
  bind_markFetch_stays

theorem declarePath_passes (q : QueryId) (root : FromId) (segs : List String)
    (aliasName : Option String) :
  ⦃fun s => ⌜s.OnText ∧ Passes s₀ s 0⌝⦄
  declarePath q root segs aliasName
  ⦃⇓? _ s => ⌜s.OnText ∧ Passes s₀ s 0⌝⦄
  := by
  mvcgen [declarePath, fail_spec, bind_navigate_stays, bind_generateAlias_stays,
    bind_declarePath_stays, bind_markFetch_stays, binder] invariants
  | inv1 => ⇓? _ s => ⌜s.OnText ∧ Passes s₀ s 0⌝
  with grind

attribute [local spec] declarePath_passes

theorem declareSource_passes (q : QueryId) (source : FromSource) (aliasName : Option String) :
  ⦃fun s => ⌜s.OnText ∧ Passes s₀ s 0⌝⦄
  declareSource q source aliasName
  ⦃⇓? _ s => ⌜s.OnText ∧ Passes s₀ s 0⌝⦄
  := by
  cases source <;>
    mvcgen [declareSource, fail_spec, bind_declareRoot_stays, declarePath_passes] with grind

attribute [local spec] expect_takes fromSource_passes declareSource_passes

theorem fromItem_passes (q : QueryId) :
  ⦃fun s => ⌜s.OnText ∧ Passes s₀ s 0⌝⦄ fromItem q ⦃⇓? _ s => ⌜s.OnText ∧ Passes s₀ s 0⌝⦄
  := by
  mvcgen [fromItem, eatKeyword_takes, expect_takes, fromSource_passes, aliasName_passes,
    declareSource_passes]
  with grind

attribute [local spec] fromItem_passes expectKeyword_takes

theorem fromList_passes (q : QueryId) :
  ⦃fun s => ⌜s.OnText ∧ Passes s₀ s 0⌝⦄ fromList q ⦃⇓? _ s => ⌜s.OnText ∧ Passes s₀ s 0⌝⦄
  := by
  mvcgen [fromList, clearJoin, budget, fromItem_passes, eat_takes, eatKeyword_takes,
    expectKeyword_takes] invariants
  | inv1 => ⇓? _ s => ⌜s.OnText ∧ Passes s₀ s 0⌝
  with grind

/-- From `s₀` the reader has gone on, `depth` parentheses deeper, past no FROM at the depth
of `s₀`, and registered nothing. -/
def SkipsFrom (s₀ s : Reader) (depth : Nat) : Prop :=
  s.text = s₀.text ∧ s.sources = s₀.sources ∧ s₀.point ≤ s.point ∧
    depthAt s₀.text s.point = depthAt s₀.text s₀.point + depth ∧
    Only s₀.text s₀.point s.point
      (fun l => l.token = .keyword .from → depthAt s₀.text l.start ≠ depthAt s₀.text s₀.point)

namespace SkipsFrom

variable {s₀ s s' : Reader} {depth depth' : Nat} {t : Token}

theorem rfl : SkipsFrom s₀ s₀ 0 := by
  simp [SkipsFrom, Only.nil]

theorem text_eq (h : SkipsFrom s₀ s depth) : s.text = s₀.text := h.1

theorem sources_eq (h : SkipsFrom s₀ s depth) : s.sources = s₀.sources := h.2.1

/-- Looking ahead passes over nothing. -/
theorem peek (h : SkipsFrom s₀ s depth) (hp : Passes s s' 0)
    (honly : Only s.text s.point s'.point (fun _ => False)) :
  SkipsFrom s₀ s' depth
  := by
  obtain ⟨htext, hsrc, hle, hdepth, hfree⟩ := h
  obtain ⟨⟨htext', hle', hdepth'⟩, -, hsrc'⟩ := hp
  rw [htext] at honly hdepth'
  refine ⟨htext'.trans htext, hsrc'.trans hsrc, hle.trans hle', by omega,
    hfree.trans (honly.mono fun _ h => h.elim)⟩

/-- Taking a token other than a FROM at the depth of `s₀` keeps it out of the way. -/
theorem take (h : SkipsFrom s₀ s depth) (ht : Takes s s' t)
    (honly : Only s.text s.point s'.point
      (fun l => l.token = t ∧ depthAt s.text l.start = depthAt s.text s.point))
    (hfrom : t = .keyword .from → depth ≠ 0) (hdepth' : (depth' : Int) = depth + t.nesting) :
  SkipsFrom s₀ s' depth'
  := by
  obtain ⟨htext, hsrc, hle, hdepth, hfree⟩ := h
  obtain ⟨⟨htext', hle', hdepth''⟩, -, hsrc'⟩ := ht
  rw [htext] at honly hdepth''
  refine ⟨htext'.trans htext, hsrc'.trans hsrc, hle.trans hle', by omega,
    hfree.trans (honly.mono fun l hl hl' => ?_)⟩
  obtain ⟨rfl, hl⟩ := hl
  have := hfrom hl'
  omega

/-- One round of the search: looking ahead twice passes over nothing, and the token then
taken is no FROM at the depth of `s₀`. -/
theorem round {s₁ s₂ s₃ : Reader} {t t' t'' : Token} (h : SkipsFrom s₀ s depth)
    (hp₁ : Passes s s₁ 0) (ho₁ : Only s.text s.point s₁.point (fun _ => False))
    (hpend₁ : s₁.pending = some t)
    (hp₂ : Passes s₁ s₂ 0) (ho₂ : Only s₁.text s₁.point s₂.point (fun _ => False))
    (hpend₂ : s₂.pending = some t') (hnext₂ : s₁.NextToken t')
    (hnext₃ : s₂.NextToken t'') (ht₃ : Takes s₂ s₃ t'')
    (ho₃ : Only s₂.text s₂.point s₃.point
      (fun l => l.token = t'' ∧ depthAt s₂.text l.start = depthAt s₂.text s₂.point))
    (hfrom : t = .keyword .from → depth ≠ 0) (hdepth : (depth' : Int) = depth + t'.nesting) :
  SkipsFrom s₀ s₃ depth'
  := by
  have ht' : t' = t := by grind [Reader.NextToken]
  have ht'' : t'' = t' := by grind [Reader.NextToken]
  subst ht' ht''
  exact ((h.peek hp₁ ho₁).peek hp₂ ho₂).take ht₃ ho₃ hfrom hdepth

end SkipsFrom

/-- Passing over the tokens of a block up to its FROM stops at the first FROM at the block's
depth, and registers nothing on the way. -/
theorem skipToFrom_finds (fuel depth : Nat) :
  ⦃fun s => ⌜s.OnText ∧ SkipsFrom s₀ s depth⌝⦄
  skipToFrom fuel depth
  ⦃⇓? found s => ⌜s.OnText ∧ s.text = s₀.text ∧ s.sources = s₀.sources ∧
      (found = true → SkipsFrom s₀ s 0 ∧ s.pending = some (.keyword .from))⌝⦄
  := by
  induction fuel generalizing depth with
  | zero =>
    mvcgen [skipToFrom]
    grind [SkipsFrom.text_eq, SkipsFrom.sources_eq]
  | succ n ih =>
    mvcgen [skipToFrom, peek_next, skip_taken, ih]
    all_goals grind [SkipsFrom.round, SkipsFrom.peek, SkipsFrom.text_eq, SkipsFrom.sources_eq]

/-- A FROM clause of `q` for a block that starts at `p₀`: its keyword at `pf` is the first
FROM at the block's depth, and the clause ends at `pa`, at the block's depth again, past no
parameter. -/
structure FromClauseAt (q : String) (p₀ pf pa : Nat) : Prop where
  start_le : p₀ ≤ pf
  le_after : pf ≤ pa
  first : Only q p₀ pf (fun l => l.token = .keyword .from → depthAt q l.start ≠ depthAt q p₀)
  depth_after : depthAt q pa = depthAt q p₀
  parameters_after : parametersBefore q pa = parametersBefore q pf

/-- The search stopped at a FROM, which is taken, and a FROM list follows. -/
theorem FromClauseAt.of_skip {s₀ s₁ s₂ s₃ : Reader} (h : SkipsFrom s₀ s₁ 0)
    (htake : Takes s₁ s₂ (.keyword .from)) (hlist : Passes s₂ s₃ 0) :
  FromClauseAt s₀.text s₀.point s₁.point s₃.point
  := by
  obtain ⟨htext, -, hle, hdepth, hfirst⟩ := h
  obtain ⟨⟨htext₂, hle₂, hdepth₂⟩, hparams₂, -⟩ := htake
  obtain ⟨⟨-, hle₃, hdepth₃⟩, hparams₃, -⟩ := hlist
  rw [htext] at hdepth₂ hparams₂
  rw [htext₂, htext] at hdepth₃ hparams₃
  refine ⟨hle, hle₂.trans hle₃, hfirst, ?_, ?_⟩
  · simp only [Token.nesting] at hdepth₂
    omega
  · simpa [Token.parameter?, hparams₂] using hparams₃

attribute [local spec] skipToFrom_finds fromList_passes

/-- The FROM clause read ahead leaves the reader where it was, and tells where the clause
ends. -/
theorem fromClause_reads (q : QueryId) :
  ⦃fun s => ⌜s₀ = s ∧ s.OnText⌝⦄
  fromClause q
  ⦃⇓? r s => ⌜Stays s₀ s ∧ r.2.2.OnText ∧ r.2.2.scanner.query = s₀.text ∧
      (r.1 = true → ∃ pf, FromClauseAt s₀.text s₀.point pf r.2.2.point)⌝⦄
  := by
  mvcgen [fromClause, mark, budget, skipToFrom_finds, skip_taken, fromList_passes, reset] with
  | vc6 hs _ _ _ hfound _ h₁ _ _ h₂ _ _ h₃ _ _ _ =>
    obtain ⟨rfl, hon⟩ := hs
    obtain ⟨hskip, hpending⟩ := h₁.2.2.2 hfound
    obtain ⟨-, -, t, hnext, htake, -⟩ := h₂
    obtain rfl : t = .keyword .from := by grind [Reader.NextToken]
    have hclause := FromClauseAt.of_skip hskip htake h₃.2
    grind [SkipsFrom.text_eq, SkipsFrom.sources_eq]
  all_goals grind [SkipsFrom.rfl, SkipsFrom.text_eq, SkipsFrom.sources_eq]

end Grammar

end EntityQuery
