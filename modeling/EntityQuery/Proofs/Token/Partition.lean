import EntityQuery.Proofs.Token.Rescanning

/-!
# The tokens of a text partition it

A scan of a text alternates gaps and tokens. A gap is Unicode white space and `@@` pairs, which
the scanner passes over; a token spans the characters that `Scanner.lexeme` returns. `Tiles i cs
ls` says that the lexemes `ls` tile the text `cs`, which starts at offset `i`: a gap, a lexeme
that starts where the gap ends and whose text is the characters that follow, then the rest tiled
from where the lexeme ends, and last the end of the text, after a last gap, at the offset where
the text ends and with an empty text.

Main statement: `tokenize_partitions`. When a text scans without failure, its lexemes tile it
from offset zero: every token but the last spans at least one character, each starts where the
gap after the one before it ends, and the end of the text comes last, at the text's length. The
tokens that `tokenize` returns are those lexemes' tokens, the end of the text left out.

The proof follows the scan: one step passes over a gap and over the token after it
(`Scanner.next_split`), and a scan with fuel enough for the text tiles what is left of it
(`Scanner.lexemes_tiles`). A token never spans more than the text left (`Scan.token_length_le`),
so the text of the lexeme is all the characters the token spans.
-/

namespace EntityQuery

namespace Scan

/-- The text between two tokens: Unicode white space and `@@` pairs. -/
inductive Gap : List Char → Prop
  | nil : Gap []
  | blank {c : Char} {cs : List Char} : CharClass.isBlank c = true → Gap cs → Gap (c :: cs)
  | atAt {cs : List Char} : Gap cs → Gap ('@' :: '@' :: cs)

/-- The characters the scanner passes over before a token form a gap. The induction is strong, on
the length of the text, since a `@@` pair passes over two characters at once. -/
theorem gap_take_gapLength (cs : List Char) :
  Gap (cs.take (gapLength cs)) ∧ gapLength cs ≤ cs.length
  := by
  obtain ⟨n, hn⟩ : ∃ n, cs.length = n := ⟨_, rfl⟩
  induction n using Nat.strongRecOn generalizing cs with
  | _ n ih =>
    match cs with
    | [] => exact ⟨.nil, Nat.le_refl _⟩
    | c :: rest =>
      simp only [List.length_cons] at hn
      by_cases hc : CharClass.isBlank c = true
      · have hstep : gapLength (c :: rest) = gapLength rest + 1 := by
          rw [gapLength.eq_def]
          simp [hc]
        obtain ⟨hg, hle⟩ := ih rest.length (by omega) rest rfl
        rw [hstep, List.take_succ_cons]
        exact ⟨.blank hc hg, by simpa using hle⟩
      · by_cases hat : ∃ more, c = '@' ∧ rest = '@' :: more
        · obtain ⟨more, rfl, rfl⟩ := hat
          have hstep : gapLength ('@' :: '@' :: more) = gapLength more + 2 := by
            rw [gapLength.eq_def]
            simp [hc]
          obtain ⟨hg, hle⟩ := ih more.length (by simp at hn; omega) more rfl
          rw [hstep, List.take_succ_cons, List.take_succ_cons]
          exact ⟨.atAt hg, by simpa using hle⟩
        · have hzero : gapLength (c :: rest) = 0 := by
            rw [gapLength.eq_def]
            simp only [hc, Bool.false_eq_true, if_false]
            split
            next more => exact (hat ⟨more, rfl, rfl⟩).elim
            next => rfl
          rw [hzero]
          exact ⟨.nil, Nat.zero_le _⟩

/-- A number spans its digits, its fraction, its exponent and its suffix, all of them
characters of the text. -/
theorem number_length_le {cs : List Char} {t : Token} {n : Nat} (h : number cs = .token t n) :
  n ≤ cs.length
  := by
  unfold number at h
  simp only [List.span_eq_takeWhile_dropWhile] at h
  grind [List.takeWhile_append_dropWhile, List.length_append]

/-- A string literal ends at its closing quote, a character of the text. -/
theorem quotedLength_le {cs : List Char} {n : Nat} (h : quotedLength cs = some n) :
  n ≤ cs.length
  := by
  induction cs using quotedLength.induct generalizing n with
  | case1 => simp [quotedLength] at h
  | case2 rest ih =>
    simp only [quotedLength, Option.map_eq_some_iff] at h
    obtain ⟨m, hm, rfl⟩ := h
    simpa using ih hm
  | case3 rest _ =>
    simp only [quotedLength, Option.some.injEq] at h
    simp [← h]
  | case4 c rest _ _ ih =>
    simp only [quotedLength, Option.map_eq_some_iff] at h
    obtain ⟨m, hm, rfl⟩ := h
    simpa using ih hm

/-- A token spans no more than the text left. -/
theorem token_length_le {p : UInt32} {cs : List Char} {t : Token} {n : Nat}
    (h : token p cs = .token t n) :
  n ≤ cs.length
  := by
  have hname : ∀ ds : List Char, (ds.takeWhile isNamePart).length ≤ ds.length :=
    fun ds => (List.takeWhile_prefix _).length_le
  unfold token at h
  split at h
  case h_18 => simpa using (positional_length h).2
  case h_19 c more =>
    split at h
    · cases h
      simpa using hname (c :: more)
    · cases h
  case h_20 more =>
    split at h
    · rename_i m hm
      cases h
      simpa using quotedLength_le hm
    · cases h
  case h_21 =>
    split at h
    · exact number_length_le h
    · split at h
      · cases h
        exact hname _
      · cases h
  all_goals
    cases h
    simp

end Scan

/-- The lexemes `ls` tile the text `cs`, which starts at offset `i`: a gap, then either the end
of the text, with an empty text at the offset where the gap ends, or a token other than the end
whose text is the next characters, at least one, and which starts where they start, followed by
the rest tiled from where the token ends. -/
inductive Tiles : Nat → List Char → List Lexeme → Prop
  | eof {i : Nat} {gap : List Char} : Scan.Gap gap → Tiles i gap [⟨.eof, i + gap.length, ""⟩]
  | token {i : Nat} {gap rest : List Char} {l : Lexeme} {ls : List Lexeme} :
      Scan.Gap gap → l.token ≠ .eof → l.text ≠ "" → l.start = i + gap.length →
      Tiles (l.start + l.text.length) rest ls → Tiles i (gap ++ l.text.toList ++ rest) (l :: ls)

namespace Tiles

/-- The last lexeme of a tiling is the end of the text, at the offset where the text ends. -/
theorem getLast? {i : Nat} {cs : List Char} {ls : List Lexeme} (h : Tiles i cs ls) :
  ls.getLast? = some ⟨.eof, i + cs.length, ""⟩
  := by
  induction h with
  | eof _ => rfl
  | @token i gap rest l ls _ _ _ hstart _ ih =>
    have hlen : l.start + l.text.length + rest.length =
        i + (gap ++ l.text.toList ++ rest).length := by
      simp only [List.length_append, String.length_toList, hstart]
      omega
    rw [List.getLast?_cons, ih, hlen]
    rfl

/-- The tokens of a tiling are those other than the end of the text, then the end. -/
theorem tokens_eq {i : Nat} {cs : List Char} {ls : List Lexeme} (h : Tiles i cs ls) :
  ls.map (·.token) = (ls.map (·.token)).filter (· ≠ .eof) ++ [.eof]
  := by
  induction h with
  | eof _ => rfl
  | token _ hne _ _ _ ih =>
    rw [List.map_cons, List.filter_cons_of_pos (by simpa using hne), ih]
    simp

end Tiles

namespace Scanner

/-- A scan step passes over a gap, then over the characters of the token it finds, which
become the text of the last token, and stays sound; only the end of the text has an empty text,
and nothing is left after it. -/
theorem next_split {s s' : Scanner} {t : Token} (hs : s.Sound) (h : s.next = .ok (t, s')) :
  ∃ gap, Scan.Gap gap ∧ s.rest = gap ++ s'.lexeme.toList ++ s'.rest ∧
    s'.start = s.pos + gap.length ∧ s'.pos = s'.start + s'.lexeme.length ∧
    (t ≠ .eof → s'.lexeme ≠ "") ∧ (t = .eof → s'.lexeme = "" ∧ s'.rest = []) ∧ s'.Sound
  := by
  have hsound := (next_copyable hs h).1
  obtain ⟨n, htok, hlex, -⟩ := next_eq_ok_lexeme hs h
  obtain ⟨n', htok', hs'⟩ := next_eq_ok h
  have hn : n' = n := (Scan.Step.token.inj (htok'.symm.trans htok)).2
  have hrest' : s'.rest = (s.rest.drop (Scan.gapLength s.rest)).drop n := by rw [hs', hn]
  have hpos' : s'.pos = s.pos + Scan.gapLength s.rest + n := by rw [hs', hn]
  have hstart' : s'.start = s.pos + Scan.gapLength s.rest := by rw [hs']
  obtain ⟨hgap, hgapLen⟩ := Scan.gap_take_gapLength s.rest
  have hlen := Scan.token_length_le htok
  simp only [List.length_drop] at hlen
  have hlexLen : s'.lexeme.length = n := by
    rw [hlex, String.length_ofList, List.length_take, List.length_drop]
    omega
  refine ⟨s.rest.take (Scan.gapLength s.rest), hgap, ?_, ?_, ?_, ?_, ?_, hsound⟩
  · rw [hlex, String.toList_ofList, hrest', List.append_assoc, List.take_append_drop,
      List.take_append_drop]
  · rw [hstart', List.length_take, Nat.min_eq_left hgapLen]
  · rw [hpos', hstart', hlexLen]
  · intro ht hempty
    have hpos := Scan.length_pos_of_ne_eof htok ht
    rw [hempty, String.length_empty] at hlexLen
    omega
  · rintro rfl
    obtain ⟨hnil, rfl⟩ := Scan.eq_nil_of_token_eof htok
    exact ⟨String.length_eq_zero_iff.mp hlexLen, by rw [hrest', hnil, List.drop_nil]⟩

/-- A scan with fuel enough for the text left, which finds no failure, tiles that text from
the scan's offset. -/
theorem lexemes_tiles (f : Nat) (s : Scanner) (hs : s.Sound) (hf : s.rest.length < f)
    (hok : (lexemes f s).2 = none) :
  Tiles s.pos s.rest (lexemes f s).1
  := by
  induction f generalizing s with
  | zero => omega
  | succ f ih =>
    cases hnext : s.next with
    | error e => simp [lexemes, hnext] at hok
    | ok r =>
      obtain ⟨t, s'⟩ := r
      obtain ⟨gap, hgap, hrest, hstart, hpos, hne, heof, hsound⟩ := next_split hs hnext
      rw [lexemes_succ hnext]
      by_cases ht : t = .eof
      · subst ht
        obtain ⟨hempty, hnil⟩ := heof rfl
        rw [hnil, hempty] at hrest
        simp only [String.toList_empty, List.append_nil] at hrest
        rw [if_pos rfl, hrest, hstart, hempty]
        exact .eof hgap
      · rw [if_neg ht]
        have hok' : (lexemes f s').2 = none := by
          simp only [lexemes, hnext, if_neg ht] at hok
          exact hok
        have hlexPos : 0 < s'.lexeme.length := by
          rcases Nat.eq_zero_or_pos s'.lexeme.length with h0 | h0
          · exact absurd (String.length_eq_zero_iff.mp h0) (hne ht)
          · exact h0
        have hf' : s'.rest.length < f := by
          have := congrArg List.length hrest
          simp only [List.length_append, String.length_toList] at this
          omega
        have htail : Tiles s'.pos s'.rest (lexemes f s').1 := ih s' hsound hf' hok'
        rw [hpos] at htail
        rw [hrest]
        exact @Tiles.token s.pos gap s'.rest ⟨t, s'.start, s'.lexeme⟩ (lexemes f s').1 hgap ht
          (hne ht) hstart htail

end Scanner

/-- The lexemes of a text that scans without failure tile it from offset zero. -/
theorem scanText_tiles {q : String} (hok : (scanText q).2 = none) :
  Tiles 0 q.toList (scanText q).1
  := by
  have h := Scanner.lexemes_tiles (q.length + 1) (Scanner.ofString q) (Scanner.sound_ofString q)
    (by simp [Scanner.ofString, String.length_toList]) hok
  exact h

/-- The lexer partitions a text it scans: the lexemes tile the text from offset zero, gaps of
white space and `@@` pairs between them, each token but the last spanning at least one
character; the tokens returned are theirs, the end of the text aside; and the end of the text
comes last, at the text's length, with an empty text. -/
theorem tokenize_partitions {q : String} {ts : List Token} (h : tokenize q = .ok ts) :
  Tiles 0 q.toList (scanText q).1 ∧ (scanText q).1.map (·.token) = ts ++ [.eof] ∧
    (scanText q).1.getLast? = some ⟨.eof, q.length, ""⟩
  := by
  unfold tokenize at h
  split at h
  · rename_i ls hscan
    cases h
    have htiles : Tiles 0 q.toList (scanText q).1 := scanText_tiles (by rw [hscan])
    rw [hscan] at htiles ⊢
    refine ⟨htiles, htiles.tokens_eq, ?_⟩
    simpa [String.length_toList] using htiles.getLast?
  · cases h

/-- `@@` is transparent: `a@@b` scans as two identifiers, with the pair as the gap between
them. -/
theorem atAt_partitions :
  tokenize "a@@b" = .ok [.identifier "a", .identifier "b"] ∧
    (Tiles 0 "a@@b".toList (scanText "a@@b").1 ∧
      (scanText "a@@b").1.map (·.token) = [.identifier "a", .identifier "b"] ++ [.eof] ∧
      (scanText "a@@b").1.getLast? = some ⟨.eof, "a@@b".length, ""⟩)
  := ⟨by decide, tokenize_partitions (by decide)⟩

end EntityQuery
