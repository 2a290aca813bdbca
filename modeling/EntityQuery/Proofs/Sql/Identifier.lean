import Mathlib
import EntityQuery.Proofs.Sql.Text

/-!
# Reading a quoted identifier back

SQL reads an identifier as parts separated by dots. A part is bare, an ASCII letter or `_`
followed by ASCII letters, digits, `_` and `$`, or quoted: the text between double quotes, in
which two double quotes stand for one. `Sql.readIdentifier` reads a text so, one character at
a time, and gives the parts it holds, or nothing when the text is no identifier, for instance
when a quote is left open.

`Sql.quoteIdentifier` writes each part of a name between its dots as it is when it is plain and
quoted otherwise. Main statement: `Sql.quoteIdentifier_readsBack`. Reading the written identifier
gives back the parts of the name between its dots: a quoted part with its quotes undone, a bare
part as written (a database compares bare parts up to ASCII case, and the part read is the part
itself). Read as SQL text, the identifier ends outside quotes. So two names with one written form
are one name.

The proof reads the written text part by part (`readParts_quotePart`): a plain part leaves the
reader inside a bare part, any other part right after its closing quote, and from both states a
dot or the end of the text ends the part (`readParts_afterPart_dot`, `readParts_afterPart_nil`).
-/

namespace EntityQuery

namespace Sql

/-- A part of an identifier as SQL reads it: a bare word, or the text between double quotes. -/
inductive IdentifierPart where
  | bare (text : String)
  | quoted (text : String)
  deriving DecidableEq, Repr

/-- The name a part of an identifier stands for. -/
def IdentifierPart.text : IdentifierPart → String
  | .bare t => t
  | .quoted t => t

/-- Where a reader of an identifier stands, with the characters of the part read so far: before
a part, in a bare part, in a quoted part, or right after a quote in a quoted part, where a second
quote stands for itself and anything else closes the part. -/
inductive IdentifierState where
  | start
  | bare (read : List Char)
  | quoted (read : List Char)
  | closing (read : List Char)

/-- Whether a character may start a bare part: an ASCII letter or `_`. -/
def bareStart (c : Char) : Bool := c.isAlpha || c == '_'

/-- Whether a character may continue a bare part: an ASCII letter or digit, `_` or `$`. -/
def barePart (c : Char) : Bool := c.isAlphanum || c == '_' || c == '$'

/-- Read the characters `cs` from the state `st`, the parts `done` read before. -/
def readParts (done : List IdentifierPart) : IdentifierState → List Char →
    Option (List IdentifierPart)
  | .start, [] => none
  | .start, c :: cs =>
    if c = '"' then readParts done (.quoted []) cs
    else if bareStart c then readParts done (.bare [c]) cs
    else none
  | .bare read, [] => some (done ++ [.bare (String.ofList read)])
  | .bare read, c :: cs =>
    if c = '.' then readParts (done ++ [.bare (String.ofList read)]) .start cs
    else if barePart c then readParts done (.bare (read ++ [c])) cs
    else none
  | .quoted _, [] => none
  | .quoted read, c :: cs =>
    if c = '"' then readParts done (.closing read) cs
    else readParts done (.quoted (read ++ [c])) cs
  | .closing read, [] => some (done ++ [.quoted (String.ofList read)])
  | .closing read, c :: cs =>
    if c = '"' then readParts done (.quoted (read ++ ['"'])) cs
    else if c = '.' then readParts (done ++ [.quoted (String.ofList read)]) .start cs
    else none

/-- The parts of an SQL identifier, or nothing when the text is no identifier. -/
def readIdentifier (text : String) : Option (List IdentifierPart) :=
  readParts [] .start text.toList

/-! ### The character classes -/

theorem isPlainStart_eq_bareStart (c : Char) : isPlainStart c = bareStart c := by
  simp only [isPlainStart, bareStart, Char.isAlpha, Char.isUpper, Char.isLower, Char.le_def]
  grind

theorem isPlainPart_eq_barePart (c : Char) : isPlainPart c = barePart c := by
  simp only [isPlainPart, barePart, isPlainStart_eq_bareStart, bareStart, Char.isAlphanum,
    Char.isDigit, Char.le_def]
  grind

/-- A dot or a double quote continues no bare part. -/
theorem barePart_ne {c : Char} (h : barePart c = true) : c ≠ '.' ∧ c ≠ '"' := by
  constructor <;> rintro rfl <;> exact absurd h (by decide)

/-! ### Reading one part -/

/-- Characters that continue a bare part are read into it. -/
theorem readParts_bare (done : List IdentifierPart) (read : List Char) {cs : List Char}
    (hcs : ∀ c ∈ cs, barePart c = true) (rest : List Char) :
  readParts done (.bare read) (cs ++ rest) = readParts done (.bare (read ++ cs)) rest
  := by
  induction cs generalizing read with
  | nil => simp
  | cons c cs ih =>
    have hc := hcs c List.mem_cons_self
    rw [List.cons_append, readParts, if_neg (barePart_ne hc).1, if_pos hc,
      ih (read ++ [c]) fun d hd => hcs d (List.mem_cons_of_mem c hd)]
    simp

/-- In a quoted part, a text whose every double quote is doubled, then a quote, is read into the
part, and the reader stands right after the quote. -/
theorem readParts_doubled (done : List IdentifierPart) (read cs rest : List Char) :
  readParts done (.quoted read)
      ((cs.flatMap fun c => if c = '"' then ['"', '"'] else [c]) ++ '"' :: rest) =
    readParts done (.closing (read ++ cs)) rest
  := by
  induction cs generalizing read with
  | nil => simp [readParts]
  | cons c cs ih =>
    by_cases hc : c = '"'
    · subst hc
      simp only [List.flatMap_cons, if_true, List.cons_append, List.nil_append]
      rw [readParts, if_pos rfl, readParts, if_pos rfl, ih]
      simp
    · simp only [List.flatMap_cons, hc, if_false, List.cons_append, List.nil_append]
      rw [readParts, if_neg hc, ih]
      simp

/-- The state after reading the part `p` as `quotePart` writes it. -/
def afterPart (p : String) : IdentifierState :=
  if isPlain p then .bare p.toList else .closing p.toList

/-- The part `p` as `quotePart` writes it is read whole. -/
theorem readParts_quotePart (done : List IdentifierPart) (p : String) (rest : List Char) :
  readParts done .start ((quotePart p).toList ++ rest) = readParts done (afterPart p) rest
  := by
  have hquote : ("\"" : String).toList = ['"'] := rfl
  unfold quotePart afterPart isPlain
  split
  · rename_i c cs hp
    split
    · rename_i hplain
      simp only [Bool.and_eq_true, List.all_eq_true] at hplain
      have hstart : bareStart c = true := by rw [← isPlainStart_eq_bareStart]; exact hplain.1
      have hc : c ≠ '"' := by rintro rfl; exact absurd hstart (by decide)
      rw [hp, List.cons_append, readParts, if_neg hc, if_pos hstart,
        readParts_bare done [c] (fun d hd => by rw [← isPlainPart_eq_barePart]; exact hplain.2 d hd)]
      rfl
    · simp only [String.toList_append, String.toList_ofList, doubling, hquote, List.append_assoc,
        List.cons_append, List.nil_append]
      rw [readParts, if_pos rfl, readParts_doubled]
      rfl
  · rename_i hp
    simp only [Bool.false_eq_true, if_false, String.toList_append, doubling, String.toList_ofList,
      hp, List.flatMap_nil]
    rfl

/-- The part that `afterPart p` holds, ended by a dot. -/
def partOf (p : String) : IdentifierPart :=
  if isPlain p then .bare p else .quoted p

@[simp]
theorem text_partOf (p : String) : (partOf p).text = p := by
  unfold partOf
  split <;> rfl

theorem readParts_afterPart_nil (done : List IdentifierPart) (p : String) :
  readParts done (afterPart p) [] = some (done ++ [partOf p])
  := by
  unfold afterPart partOf
  split <;> simp [readParts]

theorem readParts_afterPart_dot (done : List IdentifierPart) (p : String) (rest : List Char) :
  readParts done (afterPart p) ('.' :: rest) = readParts (done ++ [partOf p]) .start rest
  := by
  unfold afterPart partOf
  split <;> simp [readParts]

/-- Parts written by `quotePart` and joined by dots are read one after another. -/
theorem readParts_intercalate (done : List IdentifierPart) {ps : List String} (hps : ps ≠ []) :
  readParts done .start ((".".intercalate (ps.map quotePart)).toList) =
    some (done ++ ps.map partOf)
  := by
  induction ps generalizing done with
  | nil => exact absurd rfl hps
  | cons p ps ih =>
    cases ps with
    | nil =>
      simpa using (readParts_quotePart done p []).trans (readParts_afterPart_nil done p)
    | cons p' ps' =>
      have hsplit : (".".intercalate ((p :: p' :: ps').map quotePart)).toList =
          (quotePart p).toList ++ '.' :: (".".intercalate ((p' :: ps').map quotePart)).toList := by
        simp [String.toList_intercalate]
      rw [hsplit, readParts_quotePart, readParts_afterPart_dot, ih _ (List.cons_ne_nil _ _)]
      simp

/-! ### The parts of a name -/

/-- `dotParts` splits at every dot, the part read so far first. -/
theorem dotParts_eq (part cs : List Char) :
  dotParts part cs = ((cs.splitOn '.').modifyHead (part.reverse ++ ·)).map String.ofList
  := by
  have hid : ∀ l : List (List Char), l.modifyHead (fun x => x) = l := fun l => by cases l <;> rfl
  induction cs generalizing part with
  | nil => simp [dotParts]
  | cons c cs ih =>
    by_cases hc : c = '.'
    · subst hc
      rw [dotParts, ih, List.splitOn_cons_eq_if_modifyHead]
      simp [hid]
    · rw [dotParts, ih, List.splitOn_cons_eq_if_modifyHead, if_neg (by simpa using hc),
        List.modifyHead_modifyHead]
      · simp [Function.comp_def]
      · exact hc

/-- The parts of a name between its dots. -/
theorem dotParts_nil (name : String) :
  dotParts [] name.toList = (name.toList.splitOn '.').map String.ofList
  := by
  rw [dotParts_eq]
  cases name.toList.splitOn '.' <;> rfl

/-- Reading an identifier as the writer quotes it gives the part each part of the name was
written as. -/
theorem readIdentifier_quoteIdentifier (name : String) :
  readIdentifier (quoteIdentifier name) = some ((dotParts [] name.toList).map partOf)
  := by
  have hne : dotParts [] name.toList ≠ [] := by
    simp [dotParts_nil, List.splitOn_ne_nil]
  have h := readParts_intercalate [] hne
  rw [List.nil_append] at h
  exact h

/-- An identifier as the writer quotes it reads back as the parts of the name between its dots,
each quoted part with its quotes undone and each bare part as it is written; read as SQL text it
ends outside quotes; and so a name is the only one written that way. -/
theorem quoteIdentifier_readsBack (name : String) :
  (∃ parts, readIdentifier (quoteIdentifier name) = some parts ∧
      parts.map IdentifierPart.text = (name.toList.splitOn '.').map String.ofList) ∧
    SqlText.quotingAfter .none (quoteIdentifier name).toList = .none ∧
    ∀ other, quoteIdentifier other = quoteIdentifier name → other = name
  := by
  have hparts : ∀ n : String,
      ((dotParts [] n.toList).map partOf).map IdentifierPart.text =
        (n.toList.splitOn '.').map String.ofList := by
    intro n
    simp [dotParts_nil, Function.comp_def]
  refine ⟨⟨_, readIdentifier_quoteIdentifier name, hparts name⟩,
    (SqlText.plainText_quoteIdentifier name).1, fun other h => ?_⟩
  have hread := (readIdentifier_quoteIdentifier other).symm.trans
    (h ▸ readIdentifier_quoteIdentifier name)
  have hsplit : other.toList.splitOn '.' = name.toList.splitOn '.' := by
    have := congrArg (fun o => (o.getD []).map IdentifierPart.text) hread
    simp only [Option.getD_some, hparts] at this
    exact (List.map_inj_right fun a b hab => by simpa using congrArg String.toList hab).mp this
  have hother : ['.'].intercalate (other.toList.splitOn '.') = other.toList :=
    List.intercalate_splitOn '.'
  have hname : ['.'].intercalate (name.toList.splitOn '.') = name.toList :=
    List.intercalate_splitOn '.'
  apply String.toList_injective
  rw [← hother, ← hname, hsplit]

example :
  readIdentifier (quoteIdentifier "app.order items.a\"b") =
    some [.bare "app", .quoted "order items", .quoted "a\"b"]
  := by decide

end Sql

end EntityQuery
