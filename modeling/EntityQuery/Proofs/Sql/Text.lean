import EntityQuery.Sql.Writer

/-!
# Reading SQL text for its parameter markers

`SqlText.placeholders` reads SQL text from left to right the way a database driver finds its
parameter markers. A string literal runs from `'` to the next `'` that is not doubled, a quoted
identifier from `"` to the next `"` that is not doubled, and each `?` outside both is a
marker. The reader gives the offsets of the markers, or nothing when a literal or an
identifier is left open.

For proofs the text is read one character at a time by `Quoting.next`, where a doubled quote
closes the quoted part and opens it again. Every character other than the quotes is then
inside or outside quotes just as before, so both readings find the same markers
(`placeholders_eq`).

A text is `Plain` when it is read from outside quotes back to outside quotes and holds no
marker. String literals, quoted identifiers, numbers and keywords are plain, and so is any
text joined from plain texts. If every text piece of a written statement is plain, then its
markers are exactly its marker pieces (`marks_render`).
-/

namespace EntityQuery

namespace SqlText

/-! ### The reader -/

mutual

/-- Read outside quotes from offset `i`: the offsets of the markers, or `none` when a quoted
part is left open. -/
def placeholdersFrom (i : Nat) : List Char → Option (List Nat)
  | [] => some []
  | c :: cs =>
    if c = '?' then (placeholdersFrom (i + 1) cs).map (i :: ·)
    else if c = '\'' ∨ c = '"' then quotedFrom c (i + 1) cs
    else placeholdersFrom (i + 1) cs
termination_by cs => cs.length

/-- Read inside a part opened by the quote `q`, from offset `i`: a doubled `q` stands for
itself, a single `q` closes the part. -/
def quotedFrom (q : Char) (i : Nat) : List Char → Option (List Nat)
  | [] => none
  | [c] => if c = q then some [] else none
  | c :: d :: ds =>
    if c = q then
      if d = q then quotedFrom q (i + 2) ds else placeholdersFrom (i + 1) (d :: ds)
    else quotedFrom q (i + 1) (d :: ds)
termination_by cs => cs.length

end

/-- The offsets of the parameter markers of an SQL text, or `none` when a string literal or
a quoted identifier is not closed. -/
def placeholders (s : String) : Option (List Nat) :=
  placeholdersFrom 0 s.toList

/-! ### Reading one character at a time -/

/-- Where a reader of SQL text stands: outside quotes, in a string literal, or in a quoted
identifier. -/
inductive Quoting where
  | none
  | literal
  | identifier
  deriving DecidableEq, Repr

/-- The quoting after one more character. -/
def Quoting.next : Quoting → Char → Quoting
  | .none, '\'' => .literal
  | .none, '"' => .identifier
  | .literal, '\'' => .none
  | .identifier, '"' => .none
  | q, _ => q

/-- The quoting a quote character opens. -/
def Quoting.opening (q : Char) : Quoting :=
  if q = '\'' then .literal else .identifier

/-- The quoting after a text. -/
def quotingAfter (q : Quoting) (cs : List Char) : Quoting :=
  cs.foldl Quoting.next q

/-- The offsets, counted from `i`, of the `?` read outside quotes when `cs` is read from the
quoting `q`. -/
def marks : Quoting → Nat → List Char → List Nat
  | _, _, [] => []
  | q, i, c :: cs => (if q = .none ∧ c = '?' then [i] else []) ++ marks (q.next c) (i + 1) cs

@[simp]
theorem quotingAfter_nil (q : Quoting) : quotingAfter q [] = q := rfl

@[simp]
theorem quotingAfter_cons (q : Quoting) (c : Char) (cs : List Char) :
  quotingAfter q (c :: cs) = quotingAfter (q.next c) cs
  := rfl

@[simp]
theorem quotingAfter_append (q : Quoting) (xs ys : List Char) :
  quotingAfter q (xs ++ ys) = quotingAfter (quotingAfter q xs) ys
  := List.foldl_append

@[simp]
theorem marks_nil (q : Quoting) (i : Nat) : marks q i [] = [] := rfl

/-- Markers found further on in a text are found at offsets shifted by the same amount. -/
theorem marks_shift (q : Quoting) (i : Nat) (cs : List Char) :
  marks q i cs = (marks q 0 cs).map (· + i)
  := by
  induction cs generalizing q i with
  | nil => rfl
  | cons c cs ih =>
    rw [marks, marks, ih (q.next c) (i + 1), ih (q.next c) 1, List.map_append, List.map_map]
    congr 1
    · split <;> simp
    · apply List.map_congr_left
      intro a _
      simp only [Function.comp_apply]
      omega

/-- Reading `xs ++ ys` finds the markers of `xs`, then those of `ys` read from where `xs`
left the reader, shifted by the length of `xs`. -/
theorem marks_append (q : Quoting) (i : Nat) (xs ys : List Char) :
  marks q i (xs ++ ys) = marks q i xs ++ marks (quotingAfter q xs) (i + xs.length) ys
  := by
  induction xs generalizing q i with
  | nil => simp
  | cons c cs ih =>
    simp only [List.cons_append, marks, ih, quotingAfter_cons, List.length_cons,
      List.append_assoc]
    rw [Nat.add_assoc, Nat.add_comm 1]

/-! ### The two readings agree -/

/-- A quote opens a quoted part. -/
theorem opening_ne_none {q : Char} (hq : q = '\'' ∨ q = '"') :
  Quoting.opening q ≠ .none
  := by
  rcases hq with rfl | rfl <;> simp [Quoting.opening]

private theorem next_opening_self (q : Char) (hq : q = '\'' ∨ q = '"') :
  (Quoting.opening q).next q = .none
  := by
  rcases hq with rfl | rfl <;> rfl

private theorem next_opening_other (q c : Char) (hq : q = '\'' ∨ q = '"') (hc : c ≠ q) :
  (Quoting.opening q).next c = Quoting.opening q
  := by
  rcases hq with rfl | rfl <;> simp [Quoting.opening, Quoting.next, hc]

private theorem next_none_quote (c : Char) (hc : c = '\'' ∨ c = '"') :
  Quoting.none.next c = Quoting.opening c
  := by
  rcases hc with rfl | rfl <;> rfl

private theorem next_none_other (c : Char) (hc : ¬(c = '\'' ∨ c = '"')) :
  Quoting.none.next c = .none
  := by
  simp only [not_or] at hc
  simp [Quoting.next, hc.1, hc.2]

/-- The reader `placeholdersFrom` and the character-by-character reading agree: the text is closed
exactly when the reading ends outside quotes, and then the markers are those read outside quotes.
The induction runs on the length of the text, since a doubled quote is read as one step of two
characters. Outside quotes a step reads a marker, an opening quote or another character; inside, the
closing quote, a doubled quote or another character. -/
theorem readers_agree (n : Nat) :
  ∀ cs : List Char, cs.length ≤ n →
    (∀ i, placeholdersFrom i cs =
      if quotingAfter .none cs = .none then some (marks .none i cs) else none) ∧
    (∀ q i, (q = '\'' ∨ q = '"') → quotedFrom q i cs =
      if quotingAfter (Quoting.opening q) cs = .none then
        some (marks (Quoting.opening q) i cs) else none)
  := by
  induction n with
  | zero =>
    intro cs hcs
    rw [List.length_eq_zero_iff.mp (Nat.le_zero.mp hcs)]
    refine ⟨fun i => ?_, fun q i hq => ?_⟩
    · simp [placeholdersFrom]
    · simp [quotedFrom, opening_ne_none hq]
  | succ n ih =>
    intro cs hcs
    cases cs with
    | nil =>
      refine ⟨fun i => ?_, fun q i hq => ?_⟩
      · simp [placeholdersFrom]
      · simp [quotedFrom, opening_ne_none hq]
    | cons c cs =>
      have hlen : cs.length ≤ n := by simpa using hcs
      obtain ⟨outside, inside⟩ := ih cs hlen
      refine ⟨fun i => ?_, fun q i hq => ?_⟩
      · by_cases hm : c = '?'
        · subst hm
          simp [placeholdersFrom, outside, marks, Quoting.next]
        · by_cases hc : c = '\'' ∨ c = '"'
          · simp only [placeholdersFrom, hm, hc, if_true, if_false, inside c (i + 1) hc,
              quotingAfter_cons, marks, next_none_quote c hc]
            simp
          · simp only [placeholdersFrom, hm, hc, if_false, outside (i + 1), quotingAfter_cons,
              marks, next_none_other c hc]
            simp
      · have hne := opening_ne_none hq
        cases cs with
        | nil =>
          by_cases hcq : c = q
          · subst hcq
            simp [quotedFrom, marks, next_opening_self c hq, hne]
          · simp [quotedFrom, hcq, next_opening_other q c hq hcq, hne]
        | cons d ds =>
          have hds : ds.length ≤ n := by simp at hlen; omega
          by_cases hcq : c = q
          · subst hcq
            by_cases hdq : d = c
            · subst hdq
              obtain ⟨-, inside'⟩ := ih ds hds
              have hd : d ≠ '?' := by rcases hq with rfl | rfl <;> decide
              simp only [quotedFrom, if_true, inside' d (i + 2) hq, quotingAfter_cons,
                next_opening_self d hq, next_none_quote d hq, marks, hne]
              simp [hd, Nat.add_assoc]
            · simp only [quotedFrom, hdq, if_true, if_false, outside (i + 1),
                quotingAfter_cons, next_opening_self c hq, marks, hne]
              simp
          · simp only [quotedFrom, hcq, if_false, inside q (i + 1) hq, quotingAfter_cons,
              next_opening_other q c hq hcq, marks, hne]
            simp

/-- A text is closed exactly when the character-by-character reading ends outside quotes, and
its markers are the `?` read outside quotes. -/
theorem placeholders_eq (s : String) :
  placeholders s =
    if quotingAfter .none s.toList = .none then some (marks .none 0 s.toList) else none
  := (readers_agree s.toList.length s.toList (Nat.le_refl _)).1 0

/-! ### Plain text -/

/-- Text read from outside quotes back to outside quotes, with no marker on the way. -/
def Plain (cs : List Char) : Prop :=
  quotingAfter .none cs = .none ∧ marks .none 0 cs = []

instance (cs : List Char) : Decidable (Plain cs) :=
  inferInstanceAs (Decidable (_ ∧ _))

theorem Plain.nil : Plain [] := ⟨rfl, rfl⟩

/-- Plain texts joined are plain. -/
theorem Plain.append {xs ys : List Char} (hx : Plain xs) (hy : Plain ys) : Plain (xs ++ ys) := by
  refine ⟨?_, ?_⟩
  · rw [quotingAfter_append, hx.1, hy.1]
  · rw [marks_append, hx.1, hx.2, marks_shift, hy.2]
    rfl

/-- Text without quotes and question marks is plain. -/
theorem Plain.of_bare {cs : List Char} (h : ∀ c ∈ cs, c ≠ '\'' ∧ c ≠ '"' ∧ c ≠ '?') :
  Plain cs
  := by
  induction cs with
  | nil => exact Plain.nil
  | cons c cs ih =>
    obtain ⟨h1, h2, h3⟩ := h c (by simp)
    have hnext : Quoting.none.next c = .none := next_none_other c (by simp [h1, h2])
    have hcs := ih fun d hd => h d (by simp [hd])
    refine ⟨?_, ?_⟩
    · rw [quotingAfter_cons, hnext, hcs.1]
    · rw [marks, hnext, marks_shift, hcs.2]
      simp [h3]

/-- Plain texts joined by a plain separator are plain. -/
theorem Plain.intercalate {sep : List Char} {parts : List (List Char)} (hsep : Plain sep)
    (hparts : ∀ p ∈ parts, Plain p) :
  Plain (sep.intercalate parts)
  := by
  induction parts with
  | nil => exact Plain.nil
  | cons p ps ih =>
    cases ps with
    | nil => simpa using hparts p (by simp)
    | cons p' ps' =>
      rw [List.intercalate_cons_cons, List.append_assoc]
      refine (hparts p (by simp)).append (hsep.append ?_)
      exact ih fun x hx => hparts x (List.mem_cons_of_mem p hx)

/-- Inside quotes opened by `q`, a text whose every `q` is doubled leaves the reader inside
and finds no marker. -/
theorem doubled_inside (q : Char) (hq : q = '\'' ∨ q = '"') (cs : List Char) :
  quotingAfter (Quoting.opening q) (cs.flatMap fun c => if c = q then [q, q] else [c])
      = Quoting.opening q ∧
    marks (Quoting.opening q) 0 (cs.flatMap fun c => if c = q then [q, q] else [c]) = []
  := by
  have hne := opening_ne_none hq
  have hq' : q ≠ '?' := by rcases hq with rfl | rfl <;> decide
  induction cs with
  | nil => exact ⟨rfl, rfl⟩
  | cons c cs ih =>
    rw [List.flatMap_cons]
    by_cases hc : c = q
    · subst hc
      simp only [if_true, List.cons_append, List.nil_append]
      refine ⟨?_, ?_⟩
      · rw [quotingAfter_cons, quotingAfter_cons, next_opening_self c hq, next_none_quote c hq,
          ih.1]
      · rw [marks, marks, next_opening_self c hq, next_none_quote c hq, marks_shift, ih.2]
        simp [hne, hq']
    · simp only [hc, if_false, List.cons_append, List.nil_append]
      refine ⟨?_, ?_⟩
      · rw [quotingAfter_cons, next_opening_other q c hq hc, ih.1]
      · rw [marks, next_opening_other q c hq hc, marks_shift, ih.2]
        simp [hne]

/-- A quote, the text with that quote doubled, and the quote again: a string literal or a
quoted identifier, which is plain. -/
theorem Plain.quoted (q : Char) (hq : q = '\'' ∨ q = '"') (s : String) :
  Plain (q :: (Sql.doubling q s).toList ++ [q])
  := by
  obtain ⟨hafter, hmarks⟩ := doubled_inside q hq s.toList
  have hopen : Quoting.none.next q = Quoting.opening q := next_none_quote q hq
  have hne := opening_ne_none hq
  have hq' : q ≠ '?' := by rcases hq with rfl | rfl <;> decide
  simp only [Sql.doubling, String.toList_ofList]
  refine ⟨?_, ?_⟩
  · rw [List.cons_append, quotingAfter_cons, quotingAfter_append, hopen, hafter]
    exact next_opening_self q hq
  · rw [List.cons_append, marks, hopen, marks_append, hafter, marks_shift, hmarks]
    simp [hq', hne, marks]

/-- A string whose characters are plain text. -/
def PlainText (s : String) : Prop := Plain s.toList

instance (s : String) : Decidable (PlainText s) :=
  inferInstanceAs (Decidable (Plain _))

/-- After plain text the reader is where it started, so what follows is plain exactly when
it is plain alone. -/
theorem Plain.append_iff {xs ys : List Char} (hx : Plain xs) : Plain (xs ++ ys) ↔ Plain ys := by
  constructor
  · intro h
    refine ⟨?_, ?_⟩
    · have hafter := h.1
      rwa [quotingAfter_append, hx.1] at hafter
    · have hys := h.2
      rw [marks_append, hx.1, hx.2, List.nil_append, marks_shift] at hys
      exact List.map_eq_nil_iff.mp hys
  · exact hx.append

@[simp]
theorem plainText_append_left {s t : String} (hs : PlainText s) :
  PlainText (s ++ t) ↔ PlainText t
  := by
  unfold PlainText
  rw [String.toList_append]
  exact Plain.append_iff hs

theorem PlainText.append {s t : String} (hs : PlainText s) (ht : PlainText t) :
  PlainText (s ++ t)
  := (plainText_append_left hs).mpr ht

/-- Plain strings joined by a plain separator are plain. -/
theorem PlainText.intercalate {sep : String} {parts : List String} (hsep : PlainText sep)
    (hparts : ∀ p ∈ parts, PlainText p) :
  PlainText (sep.intercalate parts)
  := by
  unfold PlainText
  rw [String.toList_intercalate]
  apply Plain.intercalate hsep
  intro p hp
  obtain ⟨s, hs, rfl⟩ := List.mem_map.mp hp
  exact hparts s hs

/-- A string literal as the writer quotes a value is plain. -/
@[simp]
theorem plainText_quoteString (v : String) : PlainText (Sql.quoteString v) := by
  have h := Plain.quoted '\'' (Or.inl rfl) v
  simpa [PlainText, Sql.quoteString] using h

/-- A part of a plain identifier has no quote and no question mark. -/
theorem bare_of_isPlainPart {c : Char} (h : Sql.isPlainPart c = true) :
  c ≠ '\'' ∧ c ≠ '"' ∧ c ≠ '?'
  := by
  refine ⟨?_, ?_, ?_⟩ <;> rintro rfl <;> exact absurd h (by decide)

@[simp]
theorem plainText_quotePart (part : String) : PlainText (Sql.quotePart part) := by
  unfold Sql.quotePart
  split
  · rename_i hplain
    have hall : ∀ c ∈ part.toList, Sql.isPlainPart c = true := by
      unfold Sql.isPlain at hplain
      split at hplain
      · rename_i c rest hcs
        simp only [Bool.and_eq_true, List.all_eq_true] at hplain
        intro d hd
        rw [hcs] at hd
        rcases List.mem_cons.mp hd with rfl | hd
        · simp [Sql.isPlainPart, hplain.1]
        · exact hplain.2 d hd
      · exact absurd hplain (by simp)
    exact Plain.of_bare fun c hc => bare_of_isPlainPart (hall c hc)
  · have h := Plain.quoted '"' (Or.inr rfl) part
    simpa [PlainText] using h

/-- Identifiers as the writer quotes them are plain. -/
@[simp]
theorem plainText_quoteIdentifier (name : String) : PlainText (Sql.quoteIdentifier name) := by
  apply PlainText.intercalate (by decide)
  intro p hp
  obtain ⟨part, -, rfl⟩ := List.mem_map.mp hp
  exact plainText_quotePart part

/-! ### Changing case -/

/-- A character that is no quote leaves the quoting as it is. -/
theorem Quoting.next_of_unquoted (q : Quoting) {c : Char} (h1 : c ≠ '\'') (h2 : c ≠ '"') :
  q.next c = q
  := by
  unfold Quoting.next
  split <;> simp_all

section CharMap

variable {f : Char → Char} (hf : ∀ c, ∀ s ∈ ['\'', '"', '?'], f c = s ↔ c = s)
include hf

theorem Quoting.next_map (q : Quoting) (c : Char) : q.next (f c) = q.next c := by
  have h1 := hf c '\'' (by simp)
  have h2 := hf c '"' (by simp)
  by_cases hc1 : c = '\''
  · rw [h1.mpr hc1, hc1]
  · by_cases hc2 : c = '"'
    · rw [h2.mpr hc2, hc2]
    · rw [q.next_of_unquoted (mt h1.mp hc1) (mt h2.mp hc2), q.next_of_unquoted hc1 hc2]

theorem quotingAfter_map (q : Quoting) (cs : List Char) :
  quotingAfter q (cs.map f) = quotingAfter q cs
  := by
  induction cs generalizing q with
  | nil => rfl
  | cons c cs ih => simp only [List.map_cons, quotingAfter_cons, Quoting.next_map hf, ih]

theorem marks_map (q : Quoting) (i : Nat) (cs : List Char) :
  marks q i (cs.map f) = marks q i cs
  := by
  induction cs generalizing q i with
  | nil => rfl
  | cons c cs ih => simp only [List.map_cons, marks, Quoting.next_map hf, ih, hf c '?' (by simp)]

/-- A character map that moves no character to or from a quote or a question mark keeps
text plain. -/
theorem Plain.map {cs : List Char} (h : Plain cs) : Plain (cs.map f) :=
  ⟨(quotingAfter_map hf _ cs).trans h.1, (marks_map hf _ _ cs).trans h.2⟩

end CharMap

/-- Upper-casing changes letters only: no character below `A` is reached or left. -/
theorem toUpper_eq_iff {c s : Char} (hs : s.val < 'A'.val) : c.toUpper = s ↔ c = s := by
  unfold Char.toUpper
  split
  · rename_i h
    have h1 : 97 ≤ c.val.toNat := UInt32.le_iff_toNat_le.mp h.1
    have h2 : c.val.toNat ≤ 122 := UInt32.le_iff_toNat_le.mp h.2
    have h3 : s.val.toNat < 65 := UInt32.lt_iff_toNat_lt.mp hs
    constructor
    · intro h'
      have := congrArg (fun x : Char => x.val.toNat) h'
      simp only [UInt32.toNat_add] at this
      have h4 : ('A'.val - 'a'.val).toNat = 4294967264 := by decide
      omega
    · rintro rfl
      omega
  · exact Iff.rfl

/-- Plain text stays plain in upper case. -/
theorem PlainText.toUpper {s : String} (h : PlainText s) : PlainText (s.map Char.toUpper) := by
  unfold PlainText
  rw [String.toList_map]
  refine Plain.map ?_ h
  intro c t ht
  simp only [List.mem_cons, List.not_mem_nil, or_false] at ht
  rcases ht with rfl | rfl | rfl <;> exact toUpper_eq_iff (by decide)

/-! ### Written statements -/

/-- The text of written pieces. -/
def ofPieces (ps : List Piece) : String :=
  String.join (ps.map Piece.render)

/-- The offsets, counted from `i`, at which the marker pieces stand in the text of `ps`. -/
def markerOffsets : Nat → List Piece → List Nat
  | _, [] => []
  | i, .text s :: ps => markerOffsets (i + s.length) ps
  | i, .marker _ :: ps => i :: markerOffsets (i + 1) ps

/-- One offset for each marker piece. -/
theorem length_markerOffsets (i : Nat) (ps : List Piece) :
  (markerOffsets i ps).length = (ps.filterMap Piece.argument?).length
  := by
  induction ps generalizing i with
  | nil => rfl
  | cons p ps ih =>
    cases p with
    | text s => rw [markerOffsets, ih, List.filterMap_cons]; rfl
    | marker j => rw [markerOffsets, List.length_cons, ih, List.filterMap_cons]; rfl

/-- A text piece is plain; a marker piece is a marker. -/
def PlainPiece : Piece → Prop
  | .text s => PlainText s
  | .marker _ => True

/-- When every text piece is plain, the text of the pieces is read back outside quotes, and
its markers are exactly the marker pieces. -/
theorem marks_ofPieces (ps : List Piece) (hps : ∀ p ∈ ps, PlainPiece p) (i : Nat) :
  quotingAfter .none (ofPieces ps).toList = .none ∧
    marks .none i (ofPieces ps).toList = markerOffsets i ps
  := by
  induction ps generalizing i with
  | nil => exact ⟨rfl, rfl⟩
  | cons p ps ih =>
    have hrest : ∀ j, quotingAfter .none (ofPieces ps).toList = .none ∧
        marks .none j (ofPieces ps).toList = markerOffsets j ps :=
      ih fun q hq => hps q (List.mem_cons_of_mem p hq)
    have hafter := (hrest 0).1
    have hp := hps p (by simp)
    have hsplit : (ofPieces (p :: ps)).toList = p.render.toList ++ (ofPieces ps).toList := by
      simp [ofPieces, String.toList_join]
    rw [hsplit, quotingAfter_append, marks_append]
    cases p with
    | text s =>
      simp only [PlainPiece, PlainText] at hp
      simp only [Piece.render, hp.1, hafter, true_and]
      rw [marks_shift, hp.2, List.map_nil, List.nil_append, String.length_toList, markerOffsets,
        (hrest _).2]
    | marker j =>
      have hq : ("?" : String).toList = ['?'] := rfl
      simp [Piece.render, hq, Quoting.next, marks, hafter, (hrest _).2, markerOffsets]

/-- The text of pieces whose text pieces are plain is closed, and its markers stand where the
marker pieces stand. -/
theorem placeholders_ofPieces (ps : List Piece) (hps : ∀ p ∈ ps, PlainPiece p) :
  placeholders (ofPieces ps) = some (markerOffsets 0 ps)
  := by
  obtain ⟨hafter, hmarks⟩ := marks_ofPieces ps hps 0
  rw [placeholders_eq, hafter, hmarks]
  rfl

end SqlText

end EntityQuery
