import EntityQuery.Proofs.Query.Writable

/-!
# The pieces of written SQL

The writer builds a statement as a list of pieces. A piece is sound for `n` parameters when
it is plain SQL text or a marker binding one of the first `n` parameters. Keywords, numbers,
decimals and quoted identifiers are plain by their form; string literals, `ESCAPE` literals
and function names are plain when the expression that holds them is writable; the texts of
`TRUE` and `FALSE` are whatever the options say, so they are plain when the options make them
so.

`Sql.soundPieces_written` shows, by induction along the writer's own recursion, that every
expression and every block of a sound graph is written in sound pieces.
`Sql.placeholders_statement` reads the consequence off the text of a statement: its quotes
are closed, and its `?` markers stand exactly where its marker pieces stand.
-/

namespace EntityQuery

open SqlText

/-- A piece is sound for `n` parameters when it is plain text or a marker of one of them. -/
def Piece.Sound (n : Nat) : Piece → Prop
  | .text s => PlainText s
  | .marker i => i < n

/-- The texts chosen for `TRUE` and `FALSE` are plain SQL text. -/
def CompileOptions.PlainLiterals (o : CompileOptions) : Prop :=
  PlainText o.trueLiteral ∧ PlainText o.falseLiteral

instance (o : CompileOptions) : Decidable o.PlainLiterals :=
  inferInstanceAs (Decidable (_ ∧ _))

namespace Sql

/-- Every piece of the list is sound for `n` parameters. -/
def SoundPieces (n : Nat) (ps : List Piece) : Prop := ∀ p ∈ ps, p.Sound n

section

variable {n : Nat}

@[simp]
theorem soundPieces_nil : SoundPieces n [] := by simp [SoundPieces]

@[simp]
theorem soundPieces_append {ps qs : List Piece} :
  SoundPieces n (ps ++ qs) ↔ SoundPieces n ps ∧ SoundPieces n qs
  := by
  simp [SoundPieces, or_imp, forall_and]

@[simp]
theorem soundPieces_text {s : String} : SoundPieces n (text s) ↔ PlainText s := by
  simp [SoundPieces, text, Piece.Sound]

@[simp]
theorem soundPieces_marker {i : Nat} : SoundPieces n [.marker i] ↔ i < n := by
  simp [SoundPieces, Piece.Sound]

@[simp]
theorem soundPieces_paren {ps : List Piece} : SoundPieces n (paren ps) ↔ SoundPieces n ps := by
  simp +decide [paren]

@[simp]
theorem soundPieces_flatMap {α : Type} {l : List α} {f : α → List Piece} :
  SoundPieces n (l.flatMap f) ↔ ∀ x ∈ l, SoundPieces n (f x)
  := by
  simp only [SoundPieces, List.mem_flatMap]
  constructor
  · intro h x hx p hp
    exact h p ⟨x, hx, hp⟩
  · rintro h p ⟨x, hx, hp⟩
    exact h x hx p hp

@[simp]
theorem soundPieces_ite {c : Prop} [Decidable c] {ps qs : List Piece} :
  SoundPieces n (if c then ps else qs) ↔ (c → SoundPieces n ps) ∧ (¬c → SoundPieces n qs)
  := by
  split <;> simp_all

/-- Groups with a plain separator between them are sound exactly when every group is. -/
@[simp]
theorem soundPieces_sepBy {sep : String} (hsep : PlainText sep) {groups : List (List Piece)} :
  SoundPieces n (sepBy sep groups) ↔ ∀ p ∈ groups, SoundPieces n p
  := by
  cases groups with
  | nil => simp [sepBy]
  | cons p ps => simp [sepBy, hsep]

@[simp]
theorem soundPieces_operand {e : Expr} {ps : List Piece} :
  SoundPieces n (operand e ps) ↔ SoundPieces n ps
  := by
  unfold operand
  split
  · rfl
  · split <;> simp

@[simp]
theorem soundPieces_disjunct {e : Expr} {ps : List Piece} :
  SoundPieces n (disjunct e ps) ↔ SoundPieces n ps
  := by
  unfold disjunct
  split <;> simp

end

/-! ### Plain text of the writer -/

theorem plainText_toString (k : Nat) : PlainText (toString k) := by
  apply Plain.of_bare
  intro c hc
  rw [Nat.toString_eq_ofList_toDigits, String.toList_ofList] at hc
  have hdigit := Nat.isDigit_of_mem_toDigits (by decide) (by decide) hc
  refine ⟨?_, ?_, ?_⟩ <;> rintro rfl <;> exact absurd hdigit (by decide)

/-- Text of digits and points is plain. -/
theorem plainText_of_digits {s : String} (h : ∀ c ∈ s.toList, c.isDigit = true ∨ c = '.') :
  PlainText s
  := by
  apply Plain.of_bare
  intro c hc
  rcases h c hc with hdigit | rfl
  · refine ⟨?_, ?_, ?_⟩ <;> rintro rfl <;> exact absurd hdigit (by decide)
  · decide

theorem plainText_render (d : Decimal) : PlainText d.render := by
  apply plainText_of_digits
  have hdigits : ∀ c ∈ Decimal.digitsOf d.mantissa, c.isDigit = true := by
    intro c hc
    unfold Decimal.digitsOf at hc
    split at hc
    · simp at hc
    · exact Nat.isDigit_of_mem_toDigits (by decide) (by decide) hc
  have hpadded : ∀ c ∈ List.replicate (d.scale - (Decimal.digitsOf d.mantissa).length) '0' ++
      Decimal.digitsOf d.mantissa, c.isDigit = true := by
    intro c hc
    rcases List.mem_append.mp hc with hc | hc
    · rw [List.eq_of_mem_replicate hc]
      decide
    · exact hdigits c hc
  intro c hc
  unfold Decimal.render at hc
  simp only at hc
  generalize List.replicate _ '0' ++ Decimal.digitsOf d.mantissa = padded at hc hpadded
  have hwhole : ∀ k, ∀ c ∈ (if (padded.take k).isEmpty then "0"
      else String.ofList (padded.take k)).toList, c.isDigit = true := by
    intro k c hc
    split at hc
    · simp only [String.reduceToList, List.mem_singleton] at hc
      subst hc
      decide
    · rw [String.toList_ofList] at hc
      exact hpadded c (List.mem_of_mem_take hc)
  split at hc
  · exact .inl (hwhole _ c hc)
  · simp only [String.toList_append, List.mem_append, String.toList_ofList] at hc
    rcases hc with (hc | hc) | hc
    · exact .inl (hwhole _ c hc)
    · simp only [String.reduceToList, List.mem_singleton] at hc
      exact .inr hc
    · exact .inl (hpadded c (List.mem_of_mem_drop hc))

@[simp]
theorem plainText_column (g : Graph) (c : ColumnRef) : PlainText (column g c) := by
  simp +decide [column, String.append_assoc]

@[simp]
theorem plainText_columns (g : Graph) (f : FromId) (load : Bool) : PlainText (columns g f load) := by
  apply PlainText.intercalate (by decide)
  intro p hp
  obtain ⟨c, -, rfl⟩ := List.mem_map.mp hp
  exact plainText_column g _

@[simp]
theorem plainText_collectionSource (g : Graph) (c : CollectionRef) :
  PlainText (collectionSource g c)
  := by
  simp +decide only [collectionSource, String.append_assoc, plainText_append_left,
    plainText_quoteIdentifier]
  apply PlainText.intercalate (by decide)
  intro p hp
  obtain ⟨⟨l, k⟩, -, rfl⟩ := List.mem_map.mp hp
  simp +decide

@[simp]
theorem plainText_tableRef (i : FromItem) : PlainText (tableRef i) := by
  simp +decide [tableRef, String.append_assoc]

@[simp]
theorem plainText_binOp (op : BinOp) : PlainText op.sql := by
  cases op <;> decide

@[simp]
theorem plainText_trimSpec (sp : TrimSpec) : PlainText sp.sql := by
  cases sp <;> decide

@[simp]
theorem plainText_quantifier (qt : Quantifier) : PlainText qt.sql := by
  cases qt <;> decide

@[simp]
theorem plainText_dateTime (f : DateTimeFn) : PlainText f.sql := by
  cases f <;> decide

/-- The equalities of a link are plain text. -/
theorem soundPieces_linkEqualities {n : Nat} (g : Graph) (l : Link) :
  ∀ p ∈ linkEqualities g l, SoundPieces n p
  := by
  intro p hp
  obtain ⟨⟨a, b⟩, -, rfl⟩ := List.mem_map.mp hp
  simp +decide [String.append_assoc]

theorem plainText_literal {o : CompileOptions} (ho : o.PlainLiterals) {n : Nat} {l : Literal}
    (hl : (Expr.literal l).Writable n) :
  PlainText (literal o l)
  := by
  cases l with
  | integer k | long k => exact plainText_toString k
  | double d => exact plainText_render d
  | string s => simpa [literal, Expr.Writable] using hl
  | boolean b => cases b with
    | true => exact ho.1
    | false => exact ho.2

/-! ### Writing a sound graph -/

variable {g : Graph} {o : CompileOptions}

/-- Pieces made from pieces with a property `P` by a function that keeps it, such as
`operand` or `disjunct`, have it. -/
theorem forall_mem_zipWith {P : List Piece → Prop} {f : Expr → List Piece → List Piece}
    (hf : ∀ e ps, P ps → P (f e ps)) :
    ∀ (es : List Expr) {pss : List (List Piece)}, (∀ ps ∈ pss, P ps) →
      ∀ ps ∈ List.zipWith f es pss, P ps
  | [], _, _ => by simp
  | _ :: _, [], _ => by simp
  | e :: es, ps :: pss, h => by
    simp only [List.zipWith_cons_cons, List.mem_cons, forall_eq_or_imp] at h ⊢
    exact ⟨hf e ps h.1, forall_mem_zipWith hf es h.2⟩

/-- Pieces made from sound pieces by a function that keeps soundness are sound. -/
theorem soundPieces_zipWith {n : Nat} {f : Expr → List Piece → List Piece}
    (hf : ∀ e ps, SoundPieces n (f e ps) ↔ SoundPieces n ps) :
    ∀ (es : List Expr) {pss : List (List Piece)}, (∀ ps ∈ pss, SoundPieces n ps) →
      ∀ ps ∈ List.zipWith f es pss, SoundPieces n ps
  := forall_mem_zipWith fun e ps h => (hf e ps).mpr h

/-- Every writable expression is written in sound pieces when every sub-query is. The
induction follows the writer: one case for each form of expression, one for each list of
parts. -/
theorem soundPieces_exprWith (ho : o.PlainLiterals) {n : Nat} {sub : QueryId → List Piece}
    (hsub : ∀ q, SoundPieces n (sub q)) :
  (∀ e : Expr, e.Writable n → SoundPieces n (exprWith g o sub e)) ∧
    ∀ es : List Expr, Expr.WritableAll n es → ∀ ps ∈ exprsWith g o sub es, SoundPieces n ps
  := by
  apply exprWith.mutual_induct g o sub
    (fun e => e.Writable n → SoundPieces n (exprWith g o sub e))
    (fun es => Expr.WritableAll n es → ∀ ps ∈ exprsWith g o sub es, SoundPieces n ps)
  · intro l h
    simpa [exprWith] using plainText_literal ho h
  · simp +decide [exprWith]
  · intro i h
    simpa [exprWith, Expr.Writable] using h
  · intro c _
    simp [exprWith]
  · intro f _
    simp [exprWith]
  · intro f _
    simp [exprWith]
  · intro c _
    simp only [exprWith, soundPieces_text]
    exact PlainText.intercalate (by decide) (by simp)
  · intro e ih h
    simp +decide [exprWith, ih h]
  · intro e ih h
    simp +decide [exprWith, ih h]
  · intro e ih h
    simp [exprWith, ih h]
  · intro op l r hop ihl ihr h
    simp +decide [exprWith, hop, ihl h.1, ihr h.2, String.append_assoc]
  · intro op l r hop ihl ihr h
    simp +decide [exprWith, hop, ihl h.1, ihr h.2, String.append_assoc]
  · intro l r ihl ihr h
    simp +decide [exprWith, ihl h.1, ihr h.2]
  · intro e lo hi negated ihe ihlo ihhi h
    cases negated <;> simp +decide [exprWith, ihe h.1, ihlo h.2.1, ihhi h.2.2]
  · intro e p escape negated ihe ihp h
    cases escape with
    | none => cases negated <;> simp +decide [exprWith, ihe h.1, ihp h.2]
    | some s => cases negated <;> simp +decide [exprWith, ihe h.1, ihp h.2.1, h.2.2]
  · intro e q negated ihe h
    cases negated <;> simp +decide [exprWith, ihe h.1, hsub]
  · intro e vs negated hvs ihe ihvs h
    cases negated <;> simp +decide [exprWith, ihe h.1] <;> exact ihvs h.2
  · intro e negated ihe h
    cases negated <;> simp +decide [exprWith, ihe h]
  · intro c negated
    cases negated <;> simp +decide [exprWith]
  · intro item c negated ihitem h
    have hitem := soundPieces_zipWith (f := operand) (fun _ _ => soundPieces_operand) item (ihitem h)
    cases negated <;> simp +decide [exprWith] <;>
    · intro k pv hkv
      simp +decide [String.append_assoc, hitem pv (List.of_mem_zip hkv).2]
  · intro c
    simp +decide [exprWith]
  · intro name args distinct ihargs h
    have hname : PlainText name := h.1
    simp +decide only [exprWith, soundPieces_append, soundPieces_text, soundPieces_sepBy]
    refine ⟨⟨?_, ihargs h.2⟩, by decide⟩
    split <;> split <;> simp +decide [String.append_assoc, hname]
  · intro spec c s ihc ihs h
    cases spec with
    | none => simp +decide [exprWith, ihc h.1, ihs h.2]
    | some sp => simp +decide [exprWith, ihc h.1, ihs h.2]
  · intro spec s ihs h
    cases spec with
    | none => simp +decide [exprWith, ihs h]
    | some sp => simp +decide [exprWith, ihs h]
  · intro a b iha ihb h
    simp +decide [exprWith, iha h.1, ihb h.2]
  · intro c t e ihc iht ihe h
    simp +decide [exprWith, ihc h.1, iht h.2.1, ihe h.2.2]
  · intro f _
    simp [exprWith]
  · intro parts ih h
    simp +decide [exprWith]
    exact ih h
  · intro parts ih h
    simp +decide [exprWith]
    exact soundPieces_zipWith (f := disjunct) (fun _ _ => soundPieces_disjunct) parts (ih h)
  · intro q _
    simp [exprWith, hsub]
  · intro q _
    simp +decide [exprWith, hsub]
  · intro qt q _
    simp +decide [exprWith, hsub]
  · intro l x ihx h
    simpa +decide [exprWith, or_imp, forall_and, ihx h] using soundPieces_linkEqualities g l
  · intro l _
    simpa +decide [exprWith] using soundPieces_linkEqualities g l
  · intro _ ps hps
    simp [exprsWith] at hps
  · intro e es ihe ihes h
    simp only [exprsWith, List.mem_cons, forall_eq_or_imp]
    exact ⟨ihe h.1, ihes h.2⟩

/-- The WHERE clause of block `q` with the condition `c` is sound when the predicates of the
graph's joins, the block's filters and the condition are written soundly. -/
theorem soundPieces_where (hg : g.Sound) {write : Expr → List Piece} (q : QueryId)
    (c : Option Expr)
    (hjoin : ∀ j : Join, j.predicate.Writable g.arguments.size →
      SoundPieces g.arguments.size (write j.predicate))
    (hfilters : ∀ e ∈ (g.block q).filters, SoundPieces g.arguments.size (write e))
    (hc : ∀ x, c = some x → SoundPieces g.arguments.size (write x)) :
  let parts := whereJoins g (g.block q) ++ (g.block q).filters ++ c.toList
  SoundPieces g.arguments.size
    (if parts.isEmpty then [] else text " WHERE " ++ sepBy " AND " (parts.map write))
  := by
  intro parts
  split
  · exact soundPieces_nil
  · simp +decide only [soundPieces_append, soundPieces_text, soundPieces_sepBy, List.forall_mem_map,
      true_and]
    intro e he
    simp only [parts, whereJoins, List.mem_append, Option.mem_toList, List.mem_filterMap] at he
    rcases he with (⟨⟨i, f⟩, -, hf⟩ | he) | he
    · split at hf
      · rename_i j hj
        split at hf
        · cases hf
          exact hjoin j (hg.predicate hj)
        · cases hf
      · cases hf
    · exact hfilters e he
    · exact hc e he

/-- Every block of a sound graph is written in sound pieces. The induction is on the depth of
sub-queries left to write, one case for each kind of statement; the expressions of a block
are those the graph holds. -/
theorem soundPieces_query (hg : g.Sound) (ho : o.PlainLiterals) :
  ∀ d q nested, SoundPieces g.arguments.size (query g o d q nested)
  := by
  apply query.induct g o
  · intro q nested
    simp [query]
  · intro q nested d _ s hs ih
    have hwrite := (soundPieces_exprWith (g := g) ho ih).1
    have hexprs : ∀ e ∈ (g.block q).expressions,
        SoundPieces g.arguments.size (exprWith g o (fun q => query g o d q true) e) :=
      fun e he => hwrite e (hg.blocks q e he)
    have hbody : (g.block q).body = .select s := hs
    simp only [Block.expressions, Body.expressions, hbody, List.mem_append, or_imp, forall_and,
      Option.mem_toList, List.mem_map, and_assoc] at hexprs
    obtain ⟨hfilters, hresults, hwhere, hgroup, hhaving, horder⟩ := hexprs
    simp only [query, hbody, soundPieces_append, and_assoc]
    refine ⟨by simp +decide, ?_, ?_, ?_, ?_, ?_, ?_, ?_, ?_⟩
    · split <;> simp +decide
    · rw [soundPieces_sepBy (by decide)]
      intro p hp
      obtain ⟨r, hr, rfl⟩ := List.mem_map.mp hp
      split
      · split
        · exact hresults _ hr
        · simp
      · exact hresults r hr
    · split <;> simp +decide
    · split
      · rw [soundPieces_flatMap]
        intro x _
        split
        · simp +decide
        · split
          · simp +decide only [soundPieces_append, soundPieces_text, plainText_append_left,
              plainText_tableRef, true_and]
            split
            · rename_i j hj
              simp +decide [hwrite _ (hg.predicate hj)]
            · exact soundPieces_nil
          · simp +decide
      · exact soundPieces_nil
    · exact soundPieces_where hg q s.whereClause (fun j => hwrite j.predicate) hfilters hwhere
    · split
      · exact soundPieces_nil
      · simpa +decide using hgroup
    · split
      · rename_i h hh
        simp +decide [hhaving h hh]
      · exact soundPieces_nil
    · split
      · exact soundPieces_nil
      · simp +decide only [soundPieces_append, soundPieces_text, soundPieces_sepBy, true_and]
        intro p hp
        obtain ⟨t, ht, rfl⟩ := List.mem_map.mp hp
        have hterm := horder t.expr ⟨t, ht, rfl⟩
        split <;> simp +decide [hterm]
  · intro q nested d _ assignments w hs ih
    have hwrite := (soundPieces_exprWith (g := g) ho ih).1
    have hexprs : ∀ e ∈ (g.block q).expressions,
        SoundPieces g.arguments.size (exprWith g o (fun q => query g o d q true) e) :=
      fun e he => hwrite e (hg.blocks q e he)
    have hbody : (g.block q).body = .update assignments w := hs
    simp only [Block.expressions, Body.expressions, hbody, List.mem_append, or_imp, forall_and,
      Option.mem_toList, List.mem_map] at hexprs
    obtain ⟨hfilters, hvalues, hwhere⟩ := hexprs
    simp only [query, hbody, soundPieces_append]
    refine ⟨⟨?_, ?_⟩, soundPieces_where hg q w (fun j => hwrite j.predicate) hfilters hwhere⟩
    · split <;> simp +decide
    · rw [soundPieces_sepBy (by decide)]
      intro p hp
      obtain ⟨a, ha, hp⟩ := List.mem_flatMap.mp hp
      obtain ⟨c, -, rfl⟩ := List.mem_map.mp hp
      simp +decide [hvalues a.value ⟨a, ha, rfl⟩]
  · intro q nested d _ w hs ih
    have hwrite := (soundPieces_exprWith (g := g) ho ih).1
    have hexprs : ∀ e ∈ (g.block q).expressions,
        SoundPieces g.arguments.size (exprWith g o (fun q => query g o d q true) e) :=
      fun e he => hwrite e (hg.blocks q e he)
    have hbody : (g.block q).body = .delete w := hs
    simp only [Block.expressions, Body.expressions, hbody, List.mem_append, or_imp, forall_and,
      Option.mem_toList] at hexprs
    obtain ⟨hfilters, hwhere⟩ := hexprs
    simp only [query, hbody, soundPieces_append]
    refine ⟨?_, soundPieces_where hg q w (fun j => hwrite j.predicate) hfilters hwhere⟩
    split <;> simp +decide

/-- Every writable expression and every block of a sound graph is written in pieces sound for
the graph's parameters. -/
theorem soundPieces_written (hg : g.Sound) (ho : o.PlainLiterals) :
  (∀ d e, e.Writable g.arguments.size → SoundPieces g.arguments.size (expr g o d e)) ∧
    (∀ d q nested, SoundPieces g.arguments.size (query g o d q nested))
  := ⟨fun d => (soundPieces_exprWith ho fun q => soundPieces_query hg ho d q true).1,
    soundPieces_query hg ho⟩

/-- The SQL of a statement of a sound graph is closed, its `?` markers stand exactly where the
writer put its marker pieces, and each of them binds one of the graph's parameters. -/
theorem placeholders_statement (hg : g.Sound) (ho : o.PlainLiterals) (root : QueryId) :
  placeholders (statement g o root).sql =
      some (markerOffsets 0 (query g o (g.blocks.size + 1) root false)) ∧
    (markerOffsets 0 (query g o (g.blocks.size + 1) root false)).length =
      (statement g o root).markers.length ∧
    ∀ i ∈ (statement g o root).markers, i < g.arguments.size
  := by
  have hsound := (soundPieces_written hg ho).2 (g.blocks.size + 1) root false
  refine ⟨?_, length_markerOffsets _ _, ?_⟩
  · apply placeholders_ofPieces
    intro p hp
    have hp := hsound p hp
    cases p with
    | text s => exact hp
    | marker _ => trivial
  · intro i hi
    obtain ⟨p, hp, hpi⟩ := List.mem_filterMap.mp hi
    cases p with
    | text _ => cases hpi
    | marker j =>
      cases hpi
      exact hsound _ hp

end Sql

end EntityQuery
