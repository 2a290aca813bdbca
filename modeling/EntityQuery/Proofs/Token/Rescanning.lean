import Mathlib.Logic.Relation
import Mathlib.Data.List.TakeDrop
import EntityQuery.Proofs.Token.Lexemes

/-!
# Scanning a text again

`scanText q` scans `q` once, from its start to its end or to its first failure, and lists each
token it finds with its offset and its text. A scanner is `Scanner.OnText q` when scan steps
have brought it there from the start of `q`. A scan step is a function of the scanner alone, so
a step from a scanner on `q` finds what the one scan finds at that point:
`Scanner.OnText.next_mem_scanText` says that the token, its offset and its text form a lexeme of
`scanText q`. A reader that goes back to a point it passed holds such a scanner again, and so
it scans the same tokens the second time as the first.

The proof follows the one scan along: at a scanner on `q`, either the lexemes still to come
are the last lexemes of `scanText q` and the fuel left covers the characters left, or the scan
has found the end of the text, where it stays (`Scanner.OnText.ahead`). Every token but the end
of the text spans at least one character (`Scan.token_length_pos`), which is why one step per
character and one more reach the end.

The one scan numbers the bare `?` as it goes: the scanner counts each bare `?` and each
`:name` on a 32-bit counter that wraps, and a bare `?` takes the count so far plus one
(`Scanner.next_bare`, `Scanner.next_params`). So in `scanText q` a bare `?` is numbered one more
than the bare `?` and `:name` tokens before it, modulo `2 ^ 32` (`scanText_bare`).
-/

namespace EntityQuery

namespace Scan

/-- A character that may start a name may continue one. -/
theorem isNamePart_of_isNameStart {c : Char} (h : isNameStart c = true) : isNamePart c = true := by
  simp only [isNameStart, isNamePart, CharClass.isLetterOrDigit, Bool.or_eq_true,
    decide_eq_true_eq] at h ⊢
  grind

/-- A number spans its first digit at least. -/
theorem number_length_pos {c : Char} {r : List Char} {t : Token} {n : Nat}
    (hc : Decimal.isDigit c = true) (h : number (c :: r) = .token t n) :
  0 < n
  := by
  unfold number at h
  simp only [List.span_eq_takeWhile_dropWhile, List.takeWhile_cons, hc, if_true] at h
  split at h
  · cases h
  · split_ifs at h <;> (try split at h) <;>
      first
        | (injection h with _ hn
           rw [← hn]
           simp only [List.length_append, List.length_cons]
           omega)
        | cases h

/-- A positional parameter spans its `?` and the digits after it. -/
theorem positional_length {p : UInt32} {cs : List Char} {t : Token} {n : Nat}
    (h : positional p ('?' :: cs) = .token t n) :
  0 < n ∧ n ≤ cs.length + 1
  := by
  unfold positional at h
  simp only [List.drop_succ_cons, List.drop_zero] at h
  have hds : (cs.takeWhile Decimal.isDigit).length ≤ cs.length :=
    (List.takeWhile_prefix _).length_le
  split at h
  · cases h
    omega
  · split at h
    · cases h
    · split at h
      · cases h
      · cases h
        omega

/-- A bare `?` takes the next number of the automatic numbering. -/
theorem positional_bare {p : UInt32} {cs : List Char} {t : Token} {n : Nat}
    (h : positional p ('?' :: cs) = .token t n) (hn : n = 1) :
  t = .positional (p + 1).toNat
  := by
  unfold positional at h
  simp only [List.drop_succ_cons, List.drop_zero] at h
  split at h
  · cases h
    rfl
  · rename_i hds
    have hpos : 0 < (cs.takeWhile Decimal.isDigit).length := by
      simpa [List.isEmpty_iff, List.length_pos_iff] using hds
    split at h
    · cases h
    · split at h
      · cases h
      · cases h
        omega

/-- The token a name stands for is no parameter and not the end of the text. -/
theorem classifyName_cases (name : String) :
  (∃ b, classifyName name = .boolean b) ∨ classifyName name = .null ∨
    (∃ k, classifyName name = .keyword k) ∨ classifyName name = .identifier name
  := by
  unfold classifyName
  split
  · exact .inl ⟨_, rfl⟩
  · split
    · exact .inl ⟨_, rfl⟩
    · split
      · exact .inr (.inl rfl)
      · split
        · exact .inr (.inr (.inl ⟨_, rfl⟩))
        · exact .inr (.inr (.inr rfl))

/-- Only the end of the text scans as `eof`. -/
theorem eq_nil_of_token_eof {p : UInt32} {cs : List Char} {n : Nat}
    (h : token p cs = .token .eof n) :
  cs = [] ∧ n = 0
  := by
  unfold token at h
  split at h
  case h_1 =>
    cases h
    exact ⟨rfl, rfl⟩
  case h_18 =>
    obtain ⟨m, hm⟩ := positional_token h
    cases hm
  case h_19 => split at h <;> cases h
  case h_20 => split at h <;> cases h
  case h_21 =>
    split at h
    · obtain ⟨d, hd⟩ | ⟨m, hm⟩ | ⟨m, hm⟩ := number_token h
      all_goals cases ‹Token.eof = _›
    · split at h
      · obtain ⟨hname, -⟩ := Step.token.inj h
        rcases classifyName_cases (String.ofList (List.takeWhile isNamePart _)) with
          ⟨b, hb⟩ | hb | ⟨k, hb⟩ | hb <;> rw [hb] at hname <;> cases hname
      · cases h
  all_goals cases h

/-- Every token found before the end of the text spans at least one character. -/
theorem token_length_pos {p : UInt32} {cs : List Char} {t : Token} {n : Nat}
    (h : token p cs = .token t n) (hne : cs ≠ []) :
  0 < n
  := by
  unfold token at h
  split at h
  case h_1 => exact absurd rfl hne
  case h_18 => exact (positional_length h).1
  case h_19 =>
    split at h
    · cases h
      omega
    · cases h
  case h_20 =>
    split at h
    · cases h
      omega
    · cases h
  case h_21 c more _ _ _ _ _ _ _ _ _ _ _ _ _ _ _ _ _ _ _ =>
    split at h
    · exact number_length_pos ‹_› h
    · split at h
      · cases h
        rw [List.takeWhile_cons_of_pos (isNamePart_of_isNameStart ‹_›)]
        simp
      · cases h
  all_goals
    cases h
    omega

/-- Every token but the end of the text spans at least one character. -/
theorem length_pos_of_ne_eof {p : UInt32} {cs : List Char} {t : Token} {n : Nat}
    (h : token p cs = .token t n) (ht : t ≠ .eof) :
  0 < n
  := by
  apply token_length_pos h
  rintro rfl
  cases h
  exact ht rfl

/-- A positional parameter spans no more than the text left. -/
theorem token_positional_length {p : UInt32} {m n : Nat} {cs : List Char}
    (h : token p cs = .token (.positional m) n) :
  n ≤ cs.length
  := by
  unfold token at h
  split at h
  case h_18 => simpa using (positional_length h).2
  case h_19 => split at h <;> cases h
  case h_20 => split at h <;> cases h
  case h_21 =>
    split at h
    · obtain ⟨d, hd⟩ | ⟨k, hk⟩ | ⟨k, hk⟩ := number_token h
      all_goals cases ‹Token.positional _ = _›
    · split at h
      · obtain ⟨hname, -⟩ := Step.token.inj h
        rcases classifyName_cases (String.ofList (List.takeWhile isNamePart _)) with
          ⟨b, hb⟩ | hb | ⟨k, hb⟩ | hb <;> rw [hb] at hname <;> cases hname
      · cases h
  all_goals cases h

end Scan

namespace Scanner

/-- What a scan step does: it passes over the gap, takes the token at the head of what
follows, and counts the token if it takes a number. -/
theorem next_eq_ok {s s' : Scanner} {t : Token} (h : s.next = .ok (t, s')) :
  ∃ n, Scan.token s.params (s.rest.drop (Scan.gapLength s.rest)) = .token t n ∧
    s' = { s with
      rest := (s.rest.drop (Scan.gapLength s.rest)).drop n
      pos := s.pos + Scan.gapLength s.rest + n
      start := s.pos + Scan.gapLength s.rest
      params := if Scan.countsParameter t n then s.params + 1 else s.params }
  := by
  simp only [next, advance] at h
  split at h
  · rename_i n htok
    simp only [Except.ok.injEq, Prod.mk.injEq] at h
    obtain ⟨rfl, rfl⟩ := h
    exact ⟨n, htok, rfl⟩
  · cases h

/-- The text and the count of a scan step: the characters the token spans, and one more
parameter when the token takes a number. -/
theorem next_eq_ok_lexeme {s s' : Scanner} {t : Token} (hs : s.Sound) (h : s.next = .ok (t, s')) :
  ∃ n, Scan.token s.params (s.rest.drop (Scan.gapLength s.rest)) = .token t n ∧
    s'.lexeme = String.ofList ((s.rest.drop (Scan.gapLength s.rest)).take n) ∧
    s'.params = if Scan.countsParameter t n then s.params + 1 else s.params
  := by
  obtain ⟨n, htok, rfl⟩ := next_eq_ok h
  refine ⟨n, htok, ?_, rfl⟩
  have hsub : s.pos + Scan.gapLength s.rest + n - (s.pos + Scan.gapLength s.rest) = n := by omega
  have hrest : s.rest = s.source.drop s.pos := hs
  simp only [lexeme]
  generalize Scan.gapLength s.rest = g at *
  rw [hsub, hrest, List.drop_drop]

/-- A bare `?` takes the count so far plus one, on the 32-bit counter. -/
theorem next_bare {s s' : Scanner} {t : Token} (hs : s.Sound) (h : s.next = .ok (t, s'))
    (hbare : s'.lexeme = "?") :
  t = .positional (s.params + 1).toNat
  := by
  obtain ⟨n, htok, hlex, -⟩ := next_eq_ok_lexeme hs h
  generalize s.rest.drop (Scan.gapLength s.rest) = cs at htok hlex
  have hone : cs.take n = ['?'] := by
    have := congrArg String.toList (hlex.symm.trans hbare)
    simpa using this
  obtain ⟨more, rfl⟩ : ∃ more, cs = '?' :: more := by
    cases cs with
    | nil => simp at hone
    | cons c more =>
      cases n with
      | zero => simp at hone
      | succ n =>
        simp only [List.take_succ_cons, List.cons.injEq] at hone
        exact ⟨more, by rw [hone.1]⟩
  have hpos : Scan.token s.params ('?' :: more) = Scan.positional s.params ('?' :: more) := by
    simp [Scan.token]
  rw [hpos] at htok
  have hlen := congrArg List.length hone
  have hle := (Scan.positional_length htok).2
  simp only [List.length_take, List.length_cons, List.length_nil] at hlen
  exact Scan.positional_bare htok (by omega)

/-- A scan step counts a parameter exactly when the text of its token takes a number. -/
theorem next_params {s s' : Scanner} {t : Token} (hs : s.Sound) (h : s.next = .ok (t, s')) :
  s'.params = if Scan.countsParameter t s'.lexeme.length then s.params + 1 else s.params
  := by
  obtain ⟨n, htok, hlex, hparams⟩ := next_eq_ok_lexeme hs h
  rw [hparams, hlex, String.length_ofList, List.length_take]
  generalize s.rest.drop (Scan.gapLength s.rest) = cs at htok
  cases t with
  | positional m => rw [Nat.min_eq_left (Scan.token_positional_length htok)]
  | _ => rfl

/-- One scan step leads from `s` to `s'`. -/
def Steps (s s' : Scanner) : Prop := ∃ t, s.next = .ok (t, s')

/-- The scanners that scanning from `s₀` passes through, one step after another, `s₀`
included. -/
abbrev Reaches (s₀ : Scanner) : Scanner → Prop := Relation.ReflTransGen Steps s₀

/-- The scanners that scanning `q` passes through from its start. -/
abbrev OnText (q : String) : Scanner → Prop := (ofString q).Reaches

/-- Scanners are preordered by scanning: `s ≤ s'` when scanning from `s` reaches `s'`. -/
instance : LE Scanner := ⟨Reaches⟩

instance : Std.IsPreorder Scanner where
  le_refl _ := Relation.ReflTransGen.refl
  le_trans _ _ _ := Relation.ReflTransGen.trans

/-- A scan step goes forward. -/
theorem le_of_next {s s' : Scanner} {t : Token} (hnext : s.next = .ok (t, s')) : s ≤ s' :=
  Relation.ReflTransGen.single ⟨t, hnext⟩

/-- At the end of the text a scan finds the end and stays where it is. -/
theorem next_at_end {s : Scanner} (hrest : s.rest = []) (hstart : s.start = s.pos) :
  s.next = .ok (.eof, s)
  := by
  cases s
  simp_all [next, advance, Scan.gapLength, Scan.token, Scan.countsParameter]

/-- The one scan of `q` seen from a scanner on it: the lexemes still to come, scanned with
fuel enough to reach the end, are the last lexemes of `scanText q`; or the scan has found the
end of the text, and finds it again at every step. -/
theorem OnText.ahead {q : String} {s : Scanner} (h : s.OnText q) :
  (∃ f, s.rest.length < f ∧ (lexemes f s).1 <:+ (scanText q).1) ∨
    (s.next = .ok (.eof, s) ∧ ⟨.eof, s.start, s.lexeme⟩ ∈ (scanText q).1)
  := by
  induction h with
  | refl =>
    left
    refine ⟨q.length + 1, ?_, List.suffix_refl _⟩
    simp [ofString, String.length_toList]
  | @tail s s' _ hstep ih =>
    obtain ⟨t, hnext⟩ := hstep
    rcases ih with ⟨f, hf, hsuf⟩ | ⟨heof, hmem⟩
    · cases f with
      | zero => omega
      | succ f =>
        obtain ⟨n, htok, rfl⟩ := next_eq_ok hnext
        simp only [lexemes, hnext] at hsuf
        by_cases ht : t = .eof
        · subst ht
          obtain ⟨hnil, rfl⟩ := Scan.eq_nil_of_token_eof htok
          right
          refine ⟨next_at_end (by simp [hnil]) (by simp), ?_⟩
          apply hsuf.subset
          simp
        · left
          have hne : s.rest.drop (Scan.gapLength s.rest) ≠ [] := fun hnil =>
            ht (by rw [hnil] at htok; cases htok; rfl)
          have hpos := Scan.token_length_pos htok hne
          have hlen : 0 < (s.rest.drop (Scan.gapLength s.rest)).length := List.length_pos_iff.mpr hne
          refine ⟨f, ?_, ?_⟩
          · simp only [List.length_drop] at hlen ⊢
            omega
          · simp only [ht, if_false] at hsuf
            exact (List.suffix_cons _ _).trans hsuf
    · rw [heof] at hnext
      simp only [Except.ok.injEq, Prod.mk.injEq] at hnext
      obtain ⟨rfl, rfl⟩ := hnext
      exact .inr ⟨heof, hmem⟩

/-- A scan step from a scanner on `q` finds a lexeme of `scanText q`: the token that the one
scan finds at the same offset, with the same text. -/
theorem OnText.next_mem_scanText {q : String} {s s' : Scanner} {t : Token} (h : s.OnText q)
    (hnext : s.next = .ok (t, s')) :
  ⟨t, s'.start, s'.lexeme⟩ ∈ (scanText q).1
  := by
  rcases h.ahead with ⟨f, hf, hsuf⟩ | ⟨heof, hmem⟩
  · cases f with
    | zero => omega
    | succ f =>
      apply hsuf.subset
      simp only [lexemes, hnext]
      split <;> simp
  · rw [heof] at hnext
    simp only [Except.ok.injEq, Prod.mk.injEq] at hnext
    obtain ⟨rfl, rfl⟩ := hnext
    exact hmem

/-- One scan step more: the lexeme found, then, before the end of the text, the rest. -/
theorem lexemes_succ {f : Nat} {s s' : Scanner} {t : Token} (hnext : s.next = .ok (t, s')) :
  (lexemes (f + 1) s).1 = ⟨t, s'.start, s'.lexeme⟩ :: if t = .eof then [] else (lexemes f s').1
  := by
  simp only [lexemes, hnext]
  split <;> rfl

/-- The lexemes of a scan start at its offset or after. -/
theorem lexemes_start_ge (f : Nat) (s : Scanner) : ∀ l ∈ (lexemes f s).1, s.pos ≤ l.start := by
  induction f generalizing s with
  | zero => simp [lexemes]
  | succ f ih =>
    cases hnext : s.next with
    | error e => simp [lexemes, hnext]
    | ok r =>
      obtain ⟨t, s'⟩ := r
      rw [lexemes_succ hnext]
      obtain ⟨n, -, rfl⟩ := next_eq_ok hnext
      intro l hl
      rcases List.mem_cons.mp hl with rfl | hl
      · simp
      · split at hl
        · cases hl
        · have := ih _ l hl
          simp only at this
          omega

/-- The lexemes of a scan start one after another. -/
theorem lexemes_sorted (f : Nat) (s : Scanner) :
  (lexemes f s).1.Pairwise (fun a b => a.start < b.start)
  := by
  induction f generalizing s with
  | zero => simp [lexemes]
  | succ f ih =>
    cases hnext : s.next with
    | error e => simp [lexemes, hnext]
    | ok r =>
      obtain ⟨t, s'⟩ := r
      rw [lexemes_succ hnext]
      split
      · exact List.pairwise_singleton _ _
      · obtain ⟨n, htok, rfl⟩ := next_eq_ok hnext
        have hpos := Scan.length_pos_of_ne_eof htok ‹_›
        refine List.pairwise_cons.mpr ⟨fun l hl => ?_, ih _⟩
        have := lexemes_start_ge f _ l hl
        simp only at this ⊢
        omega

end Scanner

/-- Whether a lexeme takes a number of the automatic numbering: a bare `?` or a `:name`. -/
def Lexeme.takesNumber (l : Lexeme) : Bool := Scan.countsParameter l.token l.text.length

/-- Along a scan, a bare `?` is numbered one more than the count the scan starts from and the
bare `?` and `:name` tokens found before it, modulo `2 ^ 32` as the counter wraps. -/
theorem lexemes_bare (f : Nat) (s : Scanner) (hs : s.Sound) (i : Nat) (l : Lexeme)
    (hl : (Scanner.lexemes f s).1[i]? = some l) (hbare : l.text = "?") :
  l.token = .positional ((s.params.toNat + 1 +
    ((Scanner.lexemes f s).1.take i).countP Lexeme.takesNumber) % UInt32.size)
  := by
  induction f generalizing s i with
  | zero => simp [Scanner.lexemes] at hl
  | succ f ih =>
    cases hnext : s.next with
    | error e => simp [Scanner.lexemes, hnext] at hl
    | ok r =>
      obtain ⟨t, s'⟩ := r
      rw [Scanner.lexemes_succ hnext] at hl ⊢
      cases i with
      | zero =>
        obtain rfl : l = ⟨t, s'.start, s'.lexeme⟩ := by simpa using hl.symm
        rw [Scanner.next_bare hs hnext hbare, UInt32.toNat_add]
        rfl
      | succ i =>
        split at hl
        · simp at hl
        · simp only [List.getElem?_cons_succ] at hl
          rw [ih s' (Scanner.next_copyable hs hnext).1 i hl, Scanner.next_params hs hnext]
          simp only [List.take_succ_cons, List.countP_cons, Lexeme.takesNumber, if_neg ‹_›]
          by_cases hc : Scan.countsParameter t s'.lexeme.length
          · simp only [hc, if_true, Token.positional.injEq, UInt32.toNat_add, UInt32.toNat_one,
              UInt32.size]
            omega
          · simp [hc]

/-- In the one scan of a text, a bare `?` is numbered one more than the bare `?` and `:name`
tokens before it, modulo `2 ^ 32`. -/
theorem scanText_bare {q : String} {i : Nat} {l : Lexeme} (hl : (scanText q).1[i]? = some l)
    (hbare : l.text = "?") :
  l.token = .positional ((1 + ((scanText q).1.take i).countP Lexeme.takesNumber) % UInt32.size)
  := by
  have h := lexemes_bare (q.length + 1) (Scanner.ofString q) (Scanner.sound_ofString q) i l hl hbare
  rwa [Scanner.ofString, UInt32.toNat_zero, Nat.zero_add] at h

/-- The lexemes of the one scan of a text start one after another. -/
theorem scanText_sorted (q : String) : (scanText q).1.Pairwise (fun a b => a.start < b.start) :=
  Scanner.lexemes_sorted _ _

namespace Lexeme

variable {ls : List Lexeme} (hs : ls.Pairwise (fun a b => a.start < b.start))
include hs

/-- In lexemes that start one after another, those before the one at index `i` are those that
start before it. -/
theorem take_eq_filter_start_lt {i : Nat} {l : Lexeme} (hl : ls[i]? = some l) :
  ls.take i = ls.filter (·.start < l.start)
  := by
  induction ls generalizing i with
  | nil => simp at hl
  | cons a as ih =>
    obtain ⟨ha, has⟩ := List.pairwise_cons.mp hs
    cases i with
    | zero =>
      obtain rfl : a = l := by simpa using hl
      symm
      rw [List.take_zero, List.filter_eq_nil_iff]
      intro b hb
      rcases List.mem_cons.mp hb with rfl | hb
      · simp
      · simpa using Nat.le_of_lt (ha b hb)
    | succ i =>
      simp only [List.getElem?_cons_succ] at hl
      have hal : a.start < l.start := ha l (List.mem_of_getElem? hl)
      simp [hal, ih has hl]

/-- In lexemes that start one after another, the one at index `i` is the only one at its
offset. -/
theorem filter_start_eq {i : Nat} {l : Lexeme} (hl : ls[i]? = some l) :
  ls.filter (·.start = l.start) = [l]
  := by
  induction ls generalizing i with
  | nil => simp at hl
  | cons a as ih =>
    obtain ⟨ha, has⟩ := List.pairwise_cons.mp hs
    cases i with
    | zero =>
      obtain rfl : a = l := by simpa using hl
      have hrest : as.filter (·.start = a.start) = [] := by
        rw [List.filter_eq_nil_iff]
        intro b hb
        simpa using Nat.ne_of_gt (ha b hb)
      simp [hrest]
    | succ i =>
      simp only [List.getElem?_cons_succ] at hl
      have hal : a.start ≠ l.start := Nat.ne_of_lt (ha l (List.mem_of_getElem? hl))
      simp [hal, ih has hl]

end Lexeme

end EntityQuery
