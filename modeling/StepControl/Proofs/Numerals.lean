/-
Which texts name a delay, and which delay.

The grammar is said on its own, without the reader:
- a text is a core between blanks, and the core neither begins nor ends with one (`Trimmed`);
- a numeral is at most one plus sign and then one or more ASCII digits, which count by their places (`Numeral`, `placed`).

The reader cuts off blanks in two sweeps and collects digits from the left. It finds what the grammar says:
- `trim_eq_iff`: cutting off blanks finds the core, and there is only one.
- `digits?_eq_some_iff`: digits collected from the left count by their places. The induction is on the digits, with what was
  collected before as an accumulator.
- `numeral?_eq_some_iff`: numerals are read as the numbers that they name, and nothing else is read; a text is a numeral of
  one number at most (`Numeral.unique`).

Results:
- `parse_exact`: a text names a delay exactly where its core is a numeral from 1 to 2^64 - 1, and then that many
  milliseconds; a zero, in whatever spelling, is reported as the number that it is, and everything else as it stands.
- `parse_exact_spellings`: a sign with zeros behind it, blanks of both kinds, zero, and the numbers at the end of the range.

Premises: none. Texts are lists of code points; blanks are those with the property White_Space (`Text.blankRanges`), and
digits those of ASCII, so digits of other scripts are no digits here.
-/
import Mathlib.Data.List.DropRight
import Mathlib.Data.Nat.Digits.Defs
import StepControl.Delay

namespace StepControl

namespace Text

variable {cs core left right ds : List Char} {c : Char} {n m acc : Nat}

/-! ## Blanks at both ends -/

/-- a text is its core between blanks, and the core neither begins nor ends with one -/
structure Trimmed (cs core : List Char) : Prop where
  around : ∃ left right, cs = left ++ core ++ right ∧ (∀ c ∈ left, isBlank c = true) ∧ ∀ c ∈ right, isBlank c = true
  first : ∀ c ∈ core.head?, isBlank c = false
  last : ∀ c ∈ core.getLast?, isBlank c = false

theorem trim_eq_rdropWhile (cs : List Char) : trim cs = (cs.dropWhile isBlank).rdropWhile isBlank := rfl

/-- what is left after the two sweeps is a core -/
theorem trimmed_trim (cs : List Char) : Trimmed cs (trim cs) where
  around := by
    refine ⟨cs.takeWhile isBlank, (cs.dropWhile isBlank).rtakeWhile isBlank, ?_, ?_, ?_⟩
    · rw [trim_eq_rdropWhile, List.append_assoc, List.rdropWhile_append_rtakeWhile, List.takeWhile_append_dropWhile]
    · exact fun c hc => List.mem_takeWhile_imp hc
    · exact fun c hc => List.mem_rtakeWhile_imp hc
  first := by
    intro c hc
    rw [trim_eq_rdropWhile] at hc
    -- the core is the front of a text that does not begin with a blank
    obtain ⟨rest, hrest⟩ := List.rdropWhile_prefix isBlank (l := cs.dropWhile isBlank)
    have hhead : (cs.dropWhile isBlank).head? = some c := by
      rw [← hrest, List.head?_append, hc, Option.some_or]
    have hfirst := List.head?_dropWhile_not isBlank cs
    rw [hhead] at hfirst
    exact hfirst
  last := by
    intro c hc
    rw [trim_eq_rdropWhile] at hc
    obtain ⟨hne, rfl⟩ := List.mem_getLast?_eq_getLast hc
    simpa using List.rdropWhile_last_not isBlank (cs.dropWhile isBlank) hne

/-- a sweep from the left stops at a core -/
theorem dropWhile_isBlank_append (hleft : ∀ c ∈ left, isBlank c = true) (h : ∀ c ∈ core.head?, isBlank c = false) :
    (left ++ core).dropWhile isBlank = core := by
  rw [List.dropWhile_append_of_pos hleft]
  cases core with
  | nil => rfl
  | cons c cs =>
    have hc : isBlank c = false := h c rfl
    exact List.dropWhile_cons_of_neg (by simp [hc])

/-- **Cutting off blanks finds the core**, and there is only one. -/
theorem trim_eq_iff : trim cs = core ↔ Trimmed cs core := by
  constructor
  · rintro rfl
    exact trimmed_trim cs
  · rintro ⟨⟨left, right, rfl, hleft, hright⟩, hfirst, hlast⟩
    rcases core.eq_nil_or_concat' with rfl | ⟨front, c, rfl⟩
    · have hblank : ∀ c ∈ left ++ [] ++ right, isBlank c = true := by
        intro c hc
        rw [List.append_nil, List.mem_append] at hc
        exact hc.elim (hleft c) (hright c)
      rw [trim, List.dropWhile_eq_nil_iff.2 hblank]
      rfl
    · have hhead : ∀ c' ∈ (front ++ [c] ++ right).head?, isBlank c' = false := by
        intro c' hc'
        apply hfirst
        rwa [List.head?_append_of_ne_nil _ (by simp)] at hc'
      have hback : ((front ++ [c] ++ right).reverse).dropWhile isBlank = (front ++ [c]).reverse := by
        rw [List.reverse_append]
        refine dropWhile_isBlank_append (by simpa using hright) ?_
        rwa [List.head?_reverse]
      rw [trim, List.append_assoc left, dropWhile_isBlank_append hleft hhead, hback, List.reverse_reverse]

/-! ## Digits -/

/-- what an ASCII digit counts at the last place -/
def weight (c : Char) : Nat := c.toNat - '0'.toNat

/-- the number of digits that count by their places -/
def placed (ds : List Char) : Nat := Nat.ofDigits 10 (ds.reverse.map weight)

theorem placed_cons (c : Char) (ds : List Char) : placed (c :: ds) = 10 ^ ds.length * weight c + placed ds := by
  rw [placed, List.reverse_cons, List.map_append, Nat.ofDigits_append, List.length_map, List.length_reverse, List.map_singleton,
    Nat.ofDigits_singleton, Nat.add_comm]
  rfl

theorem digit?_eq_some_iff : digit? c = some n ↔ c.isDigit = true ∧ n = weight c := by
  unfold digit?
  have hdigit : ('0' ≤ c ∧ c ≤ '9') ↔ c.isDigit = true := by
    simp only [Char.isDigit, Bool.and_eq_true, decide_eq_true_eq]
    exact Iff.rfl
  rw [if_congr hdigit rfl rfl]
  split
  case isTrue h =>
    rw [Option.some.injEq, and_iff_right h, eq_comm]
    rfl
  case isFalse h => simp [h]

/-- digits that continue a number are collected by their places -/
theorem digits?_eq_some_iff : digits? acc ds = some n ↔
    (∀ c ∈ ds, c.isDigit = true) ∧ n = 10 ^ ds.length * acc + placed ds := by
  induction ds generalizing acc with
  | nil =>
    rw [digits?, Option.some.injEq, eq_comm]
    simp [placed]
  | cons c ds ih =>
    have hplaces : 10 ^ ds.length * (10 * acc + weight c) + placed ds =
        10 ^ (c :: ds).length * acc + placed (c :: ds) := by
      rw [placed_cons, List.length_cons, Nat.pow_succ, Nat.mul_add, Nat.mul_assoc, Nat.add_assoc]
    rw [digits?, Option.bind_eq_some_iff, List.forall_mem_cons]
    constructor
    · rintro ⟨d, hd, hrest⟩
      obtain ⟨hc, rfl⟩ := digit?_eq_some_iff.1 hd
      obtain ⟨hds, rfl⟩ := ih.1 hrest
      exact ⟨⟨hc, hds⟩, hplaces⟩
    · rintro ⟨⟨hc, hds⟩, rfl⟩
      exact ⟨weight c, digit?_eq_some_iff.2 ⟨hc, rfl⟩, ih.2 ⟨hds, hplaces.symm⟩⟩

/-! ## Numerals -/

/-- at most one plus sign, and then one or more ASCII digits, which count by their places -/
def Numeral (cs : List Char) (n : Nat) : Prop :=
  ∃ sign ds, cs = sign ++ ds ∧ (sign = [] ∨ sign = ['+']) ∧ ds ≠ [] ∧ (∀ c ∈ ds, c.isDigit = true) ∧ n = placed ds

/-- the digits of a numeral are what is left without its sign -/
theorem unsigned_append {sign : List Char} (hsign : sign = [] ∨ sign = ['+']) (hne : ds ≠ [])
    (hds : ∀ c ∈ ds, c.isDigit = true) : unsigned (sign ++ ds) = ds := by
  obtain rfl | rfl := hsign
  · obtain ⟨d, rest, rfl⟩ := List.exists_cons_of_ne_nil hne
    have hplus : d ≠ '+' := by
      rintro rfl
      exact absurd (hds '+' List.mem_cons_self) (by decide)
    rw [List.nil_append]
    unfold unsigned
    split
    case h_1 heq => exact absurd (List.cons.inj heq).1 hplus
    case h_2 => rfl
  · rfl

/-- a text is its sign, if it has one, and what is left without -/
theorem exists_sign (cs : List Char) : ∃ sign, (sign = [] ∨ sign = ['+']) ∧ cs = sign ++ unsigned cs := by
  unfold unsigned
  split
  case h_1 rest => exact ⟨['+'], Or.inr rfl, rfl⟩
  case h_2 => exact ⟨[], Or.inl rfl, rfl⟩

theorem numeral?_eq (cs : List Char) : numeral? cs = if unsigned cs = [] then none else digits? 0 (unsigned cs) := by
  rw [numeral?]
  split
  case h_1 heq => rw [heq, if_pos rfl]
  case h_2 hne => rw [if_neg hne]

/-- **Numerals are read as the numbers that they name**, and nothing else is read. -/
theorem numeral?_eq_some_iff : numeral? cs = some n ↔ Numeral cs n := by
  rw [numeral?_eq]
  constructor
  · intro h
    obtain ⟨sign, hsign, hcs⟩ := exists_sign cs
    split at h
    case isTrue => cases h
    case isFalse hne =>
      obtain ⟨hds, hn⟩ := digits?_eq_some_iff.1 h
      rw [Nat.mul_zero, Nat.zero_add] at hn
      exact ⟨sign, unsigned cs, hcs, hsign, hne, hds, hn⟩
  · rintro ⟨sign, ds, rfl, hsign, hne, hds, rfl⟩
    rw [unsigned_append hsign hne hds, if_neg hne, digits?_eq_some_iff]
    exact ⟨hds, by rw [Nat.mul_zero, Nat.zero_add]⟩

theorem Numeral.unique (h : Numeral cs n) (h' : Numeral cs m) : n = m := by
  rw [← numeral?_eq_some_iff] at h h'
  exact Option.some.inj (h.symm.trans h')

/-- a word is read where a numeral names it -/
theorem word?_eq_some_iff {w : UInt64} : word? cs = some w ↔ Numeral cs w.toNat := by
  rw [word?, Option.bind_eq_some_iff]
  constructor
  · rintro ⟨n, hn, hw⟩
    split at hw
    case isTrue hlt =>
      obtain rfl := Option.some.inj hw
      rw [UInt64.toNat_ofNat_of_lt' hlt]
      exact numeral?_eq_some_iff.1 hn
    case isFalse => cases hw
  · intro h
    exact ⟨w.toNat, numeral?_eq_some_iff.2 h, by rw [if_pos w.toNat_lt_size, UInt64.ofNat_toNat]⟩

/-- no word is read where no numeral names one -/
theorem word?_eq_none (h : ∀ n, Numeral cs n → 2 ^ 64 ≤ n) : word? cs = none := by
  cases hw : word? cs with
  | none => rfl
  | some w =>
    have hlt := w.toNat_lt
    have hle := h w.toNat (word?_eq_some_iff.1 hw)
    omega

/-! ## Decimal numbers between blanks -/

/-- collecting digits from the left counts them by their places -/
theorem ofDigitChars_eq_placed (ds : List Char) : Nat.ofDigitChars 10 ds 0 = placed ds := by
  induction ds with
  | nil => rfl
  | cons c ds ih =>
    calc
      Nat.ofDigitChars 10 (c :: ds) 0 = Nat.ofDigitChars 10 ds (weight c) := by
        rw [Nat.ofDigitChars_cons, Nat.mul_zero, Nat.zero_add]
        rfl
      _ = 10 ^ ds.length * weight c + Nat.ofDigitChars 10 ds 0 := Nat.ofDigitChars_eq_ofDigitChars_zero
      _ = placed (c :: ds) := by rw [ih, placed_cons]

/-- a number in decimal names itself -/
theorem numeral_repr (n : Nat) : Numeral (toString n).toList n := by
  refine ⟨[], Nat.toDigits 10 n, ?_, Or.inl rfl, Nat.toDigits_ne_nil, ?_, ?_⟩
  · rw [Nat.toString_eq_ofList_toDigits, String.toList_ofList, List.nil_append]
  · exact fun c hc => Nat.isDigit_of_mem_toDigits (by decide) (by decide) hc
  · rw [← ofDigitChars_eq_placed, Nat.ofDigitChars_ten_toDigits]

theorem isBlank_of_isDigit (h : c.isDigit = true) : isBlank c = false := by
  have hrange : 48 ≤ c.toNat ∧ c.toNat ≤ 57 := by
    simpa [Char.isDigit, UInt32.le_iff_toNat_le] using h
  simp only [isBlank, blankRanges, List.any_cons, List.any_nil, Bool.or_false, Bool.or_eq_false_iff, Bool.and_eq_false_iff,
    decide_eq_false_iff_not]
  omega

/-- a numeral has no blanks in it -/
theorem Numeral.not_blank (h : Numeral cs n) (hc : c ∈ cs) : isBlank c = false := by
  obtain ⟨sign, ds, rfl, hsign, -, hds, -⟩ := h
  rcases List.mem_append.1 hc with hplus | hdigit
  · obtain rfl | rfl := hsign
    · exact absurd hplus List.not_mem_nil
    · obtain rfl := List.mem_singleton.1 hplus
      decide
  · exact isBlank_of_isDigit (hds c hdigit)

/-- blanks around a numeral are cut off -/
theorem Numeral.trimmed (h : Numeral core n) (hleft : ∀ c ∈ left, isBlank c = true)
    (hright : ∀ c ∈ right, isBlank c = true) : Trimmed (left ++ core ++ right) core where
  around := ⟨left, right, rfl, hleft, hright⟩
  first _ hc := h.not_blank (List.mem_of_mem_head? hc)
  last _ hc := h.not_blank (List.mem_of_mem_getLast? hc)

end Text

/-! ## Delays -/

namespace Delay

open Text

variable {text : String} {core : List Char} {m : UInt64}

/-- a number of milliseconds that is not zero is a delay, of just that length -/
theorem exists_ofMillis (h : m ≠ 0) : ∃ d, ofMillis m = .ok d ∧ d.span = Span.ofMillis m := by
  rw [ofMillis, dif_neg h]
  exact ⟨_, rfl, rfl⟩

theorem millis_of_span {d : Delay} (h : d.span = Span.ofMillis m) : d.millis = m.toNat := by
  rw [millis, h, Span.millis_eq_total_div, Span.total_ofMillis]
  exact Nat.mul_div_cancel _ (by decide)

theorem parse_of_numeral (h : Trimmed text.toList core) (hm : Numeral core m.toNat) : parse text = ofMillis m := by
  rw [parse, trim_eq_iff.2 h, word?_eq_some_iff.2 hm]

theorem parse_of_no_word (h : Trimmed text.toList core) (hnone : ∀ n, Numeral core n → 2 ^ 64 ≤ n) :
    parse text = .error (.invalidDelay text) := by
  rw [parse, trim_eq_iff.2 h, word?_eq_none hnone]

/-- a number in range is a word -/
theorem toNat_word {n : Nat} (h : n ≤ 2 ^ 64 - 1) : (UInt64.ofNat n).toNat = n :=
  UInt64.toNat_ofNat_of_lt' (Nat.lt_of_le_of_lt h (by decide))

/-- a text is read where the numeral between its blanks is in range -/
theorem parse_isOk_iff (h : Trimmed text.toList core) :
    (∃ d, parse text = .ok d) ↔ ∃ n, Numeral core n ∧ 1 ≤ n ∧ n ≤ 2 ^ 64 - 1 := by
  constructor
  · rintro ⟨d, hd⟩
    rw [parse, trim_eq_iff.2 h] at hd
    split at hd
    case h_1 => cases hd
    case h_2 w hw =>
      have hpos : w ≠ 0 := by
        rintro rfl
        cases hd
      have hne : w.toNat ≠ 0 := fun hzero => hpos (UInt64.toNat_inj.1 hzero)
      have hlt := w.toNat_lt
      exact ⟨w.toNat, word?_eq_some_iff.1 hw, by omega, by omega⟩
  · rintro ⟨n, hn, hpos, hle⟩
    have hne : UInt64.ofNat n ≠ 0 := by
      intro hzero
      obtain rfl : n = 0 := by rw [← toNat_word hle, hzero]; rfl
      exact absurd hpos (by decide)
    obtain ⟨d, hd, -⟩ := exists_ofMillis hne
    rw [← toNat_word hle] at hn
    exact ⟨d, (parse_of_numeral h hn).trans hd⟩

/-- **Delays are read from exactly their texts.** Every text has one core between its blanks. It is read exactly where that
core is a numeral from 1 to 2^64 - 1, and then as that many milliseconds; a zero, in whatever spelling, is refused as the
number that it is, and what is no numeral of a word is refused as the text that it is, blanks included. So the decimal text
of every word but zero, with any blanks around it, is read as a delay of so many milliseconds. -/
theorem parse_exact (text : String) : ∃ core,
    (∀ cs, Trimmed text.toList cs ↔ cs = core) ∧
      ((∃ d, parse text = .ok d) ↔ ∃ n, Numeral core n ∧ 1 ≤ n ∧ n ≤ 2 ^ 64 - 1) ∧
      (∀ n, Numeral core n → 1 ≤ n → n ≤ 2 ^ 64 - 1 → parse text = ofMillis (UInt64.ofNat n)) ∧
      (Numeral core 0 → parse text = .error (.invalidDelay "0")) ∧
      ((∀ n, Numeral core n → 2 ^ 64 ≤ n) → parse text = .error (.invalidDelay text)) ∧
      ∀ (m : UInt64) (left right : List Char), m ≠ 0 → (∀ c ∈ left, isBlank c = true) → (∀ c ∈ right, isBlank c = true) →
        text.toList = left ++ (toString m.toNat).toList ++ right →
          ∃ d, parse text = .ok d ∧ d.span = Span.ofMillis m ∧ d.millis = m.toNat := by
  have hcore : Trimmed text.toList (trim text.toList) := trimmed_trim _
  refine ⟨trim text.toList, ?_, parse_isOk_iff hcore, ?_, ?_, parse_of_no_word hcore, ?_⟩
  · intro cs
    rw [← trim_eq_iff, eq_comm]
  · intro n hn _ hle
    rw [← toNat_word hle] at hn
    exact parse_of_numeral hcore hn
  · intro hzero
    exact parse_of_numeral (m := 0) hcore hzero
  · intro m left right hm hleft hright htext
    have hnumeral := numeral_repr m.toNat
    have htrimmed : Trimmed text.toList (toString m.toNat).toList := by
      rw [htext]
      exact hnumeral.trimmed hleft hright
    obtain ⟨d, hd, hspan⟩ := exists_ofMillis hm
    exact ⟨d, (parse_of_numeral htrimmed hnumeral).trans hd, hspan, millis_of_span hspan⟩

/-- a numeral with a sign and zeros before it, the greatest word between blanks of both kinds, a spelling of zero, the least
number that is no word, and two numbers -/
theorem parse_exact_spellings :
    parse "\u3000+0090\t" = ofMillis 90 ∧
      (∃ d, parse "\n18446744073709551615\u2009" = .ok d ∧ d.millis = 18446744073709551615) ∧
      parse " +000" = .error (.invalidDelay "0") ∧
      parse " 18446744073709551616" = .error (.invalidDelay " 18446744073709551616") ∧
      parse "9 0" = .error (.invalidDelay "9 0") := by
  refine ⟨?_, ?_, ?_, ?_, ?_⟩
  · obtain ⟨core, hcore, -, hread, -⟩ := parse_exact "\u3000+0090\t"
    obtain rfl := (hcore _).1 (trim_eq_iff.1 rfl)
    exact hread 90 (numeral?_eq_some_iff.1 rfl) (by decide) (by decide)
  · obtain ⟨core, -, -, -, -, -, hdecimal⟩ := parse_exact "\n18446744073709551615\u2009"
    have hbefore : ∀ c ∈ ['\n'], isBlank c = true := List.forall_mem_singleton.2 (by decide)
    have hafter : ∀ c ∈ ['\u2009'], isBlank c = true := List.forall_mem_singleton.2 (by decide)
    obtain ⟨d, hd, -, hmillis⟩ := hdecimal 18446744073709551615 _ _ (by decide) hbefore hafter (by decide)
    exact ⟨d, hd, hmillis⟩
  · obtain ⟨core, hcore, -, -, hzero, -⟩ := parse_exact " +000"
    obtain rfl := (hcore _).1 (trim_eq_iff.1 rfl)
    exact hzero (numeral?_eq_some_iff.1 rfl)
  · obtain ⟨core, hcore, -, -, -, hnone, -⟩ := parse_exact " 18446744073709551616"
    obtain rfl := (hcore _).1 (trim_eq_iff.1 rfl)
    refine hnone fun n hn => ?_
    obtain rfl := Numeral.unique hn (numeral?_eq_some_iff.1 rfl)
    decide
  · obtain ⟨core, hcore, -, -, -, hnone, -⟩ := parse_exact "9 0"
    obtain rfl := (hcore _).1 (trim_eq_iff.1 rfl)
    refine hnone fun n hn => ?_
    have hunread : numeral? (trim "9 0".toList) = none := by decide
    rw [← numeral?_eq_some_iff, hunread] at hn
    cases hn

end Delay

end StepControl
