import EntityQuery.Token.Scanner
import EntityQuery.Proofs.Sql.Text

/-!
# The lexemes the grammar copies

Three kinds of token carry text that can end up in the SQL: a string literal is copied with
its quotes, an identifier can become a function name, and a keyword that names a function
can be called by the text it was written with. `Token.Copyable t lexeme` says that this text
is plain SQL, read from outside quotes back to outside quotes with no `?` on the way.

`token_copyable` shows that every token the scanner finds is copyable with the characters
it spans: a name has neither quotes nor question marks, and a string literal closes where the
scanner ends it. `Scanner.next_copyable` carries this over to a scan step, whose `lexeme` is
the text of the token it found as long as the unread rest is the text after the offset.
-/

namespace EntityQuery

open SqlText

/-- The text a token can lend to the SQL is plain: a string literal, an identifier, and the
lexeme of a keyword. -/
def Token.Copyable : Token → String → Prop
  | .string s, _ => PlainText s
  | .identifier name, _ => PlainText name
  | .keyword _, lexeme => PlainText lexeme
  | _, _ => True

namespace Scan

/-- A character of a name is neither a quote nor a question mark. -/
theorem bare_of_isNamePart {c : Char} (h : isNamePart c = true) :
  c ≠ '\'' ∧ c ≠ '"' ∧ c ≠ '?'
  := by
  refine ⟨?_, ?_, ?_⟩ <;> rintro rfl <;> exact absurd h (by decide)

/-- The characters of a name are plain text. -/
theorem plain_name (cs : List Char) : Plain (cs.takeWhile isNamePart) :=
  Plain.of_bare fun _ hc => bare_of_isNamePart (List.all_eq_true.mp List.all_takeWhile _ hc)

/-- Inside a string literal, the characters up to and with the closing quote that `quotedLength`
finds bring the reader outside quotes, with no marker on the way. A doubled quote closes the literal
and opens it again; a quote alone closes it. -/
theorem quoted_closes (cs : List Char) {n : Nat} (h : quotedLength cs = some n) (i : Nat) :
  quotingAfter .literal (cs.take n) = .none ∧ marks .literal i (cs.take n) = []
  := by
  induction cs using quotedLength.induct generalizing n i with
  | case1 => simp [quotedLength] at h
  | case2 rest ih =>
    simp only [quotedLength, Option.map_eq_some_iff] at h
    obtain ⟨m, hm, rfl⟩ := h
    obtain ⟨hafter, hmarks⟩ := ih hm (i + 2)
    simp [Quoting.next, marks, hafter, hmarks]
  | case3 rest hrest =>
    simp only [quotedLength, Option.some.injEq] at h
    subst h
    simp [Quoting.next, marks]
  | case4 c rest hc hquote ih =>
    simp only [quotedLength, Option.map_eq_some_iff] at h
    obtain ⟨m, hm, rfl⟩ := h
    obtain ⟨hafter, hmarks⟩ := ih hm (i + 1)
    have hnext : Quoting.literal.next c = .literal := by
      unfold Quoting.next
      split <;> simp_all
    simp [hnext, marks, hafter, hmarks]

/-- A string literal as the scanner takes it is plain. -/
theorem plain_quoted {more : List Char} {n : Nat} (h : quotedLength more = some n) :
  Plain ('\'' :: more.take n)
  := by
  obtain ⟨hafter, hmarks⟩ := quoted_closes more h 1
  refine ⟨?_, ?_⟩
  · simpa [Quoting.next] using hafter
  · simp [marks, Quoting.next, hmarks]

/-- A scan at `?` finds a positional parameter. -/
theorem positional_token {p : UInt32} {cs : List Char} {t : Token} {n : Nat}
    (h : positional p cs = .token t n) :
  ∃ m, t = .positional m
  := by
  simp only [positional] at h
  split at h
  · cases h
    exact ⟨_, rfl⟩
  · split at h
    · cases h
    · split at h
      · cases h
      · cases h
        exact ⟨_, rfl⟩

/-- A scan at a digit finds a number. -/
theorem number_token {cs : List Char} {t : Token} {n : Nat} (h : number cs = .token t n) :
  (∃ d, t = .double d) ∨ (∃ m, t = .integer m) ∨ (∃ m, t = .long m)
  := by
  unfold number at h
  grind

/-- A plain name stands for a copyable token, with the name as its lexeme. -/
theorem classifyName_copyable {name : String} (h : PlainText name) :
  (classifyName name).Copyable name
  := by
  unfold classifyName
  split
  · trivial
  · split
    · trivial
    · split
      · trivial
      · split <;> exact h

/-- Every token the scanner finds is copyable with the characters it spans. -/
theorem token_copyable {p : UInt32} {cs : List Char} {t : Token} {n : Nat}
    (h : token p cs = .token t n) :
  t.Copyable (String.ofList (cs.take n))
  := by
  unfold token at h
  split at h
  case h_18 =>
    obtain ⟨m, rfl⟩ := positional_token h
    trivial
  case h_19 =>
    split at h
    · cases h
      trivial
    · cases h
  case h_20 =>
    split at h
    · rename_i m hm
      cases h
      simpa [Token.Copyable, PlainText] using plain_quoted hm
    · cases h
  case h_21 =>
    split at h
    · obtain ⟨d, rfl⟩ | ⟨m, rfl⟩ | ⟨m, rfl⟩ := number_token h <;> trivial
    · split at h
      · cases h
        rw [← List.prefix_iff_eq_take.mp (List.takeWhile_prefix isNamePart)]
        exact classifyName_copyable (by simpa [PlainText] using plain_name _)
      · cases h
  all_goals
    cases h
    trivial

end Scan

namespace Scanner

/-- The unread rest of a scan is the text after its offset. -/
def Sound (s : Scanner) : Prop := s.rest = s.source.drop s.pos

/-- A scan starts sound. -/
theorem sound_ofString (query : String) : (ofString query).Sound := rfl

/-- A scan step stays sound, and the text of the token it finds is copyable. -/
theorem next_copyable {s s' : Scanner} {t : Token} (hs : s.Sound) (h : s.next = .ok (t, s')) :
  s'.Sound ∧ t.Copyable s'.lexeme
  := by
  simp only [next, advance] at h
  split at h
  · rename_i t' n htok
    simp only [Except.ok.injEq, Prod.mk.injEq] at h
    obtain ⟨rfl, rfl⟩ := h
    have hrest : s.rest.drop (Scan.gapLength s.rest) = s.source.drop (s.pos + Scan.gapLength s.rest) := by
      rw [hs, List.drop_drop]
    constructor
    · simp only [Sound, hrest, List.drop_drop]
    · simp only [lexeme, Nat.add_sub_cancel_left, ← hrest]
      exact Scan.token_copyable htok
  · cases h

end Scanner

end EntityQuery
