/-
All ways of making a delay agree.

A delay is made of a number of milliseconds, of a span, of a text, of JSON, by a configuration, and by a request to a
controller. Each of these is asked for a length, said in its own terms:
- a number of milliseconds is asked for that many;
- a span for its own length, whatever its parts;
- a text for the number that it names (`Names`), in the words of `Numerals`;
- JSON for the length that it tells (`Delay.Tells`, `Config.Tells`), in the words of `Formats`;
- a configuration for the last change that was made to it (`Asks`);
- a request for the milliseconds that it carries.
`Keeps` says that such a way gives a delay exactly where that length is not zero, and then one of just that length. Since a
delay is known by its length (`Delay.total_inj`), they all give the same delay where they are asked for the same.

Results:
- `Delay.exists_isMillis`: from one millisecond on there is one delay for each number of milliseconds, which every way
  gives, and which shows that number.
- `Delay.le_iff`, `Delay.millis_mono`: the order of delays, by seconds first and then by nanoseconds, is the order of their
  lengths.
- `delays_agree`: all of it, with the errors for zero.
- `delays_agree_longest`: the longest number of milliseconds there is.

Premises: none. Lengths range over all that 64 bits of seconds and a part of a second can hold.
-/
import StepControl.Proofs.Formats
import StepControl.Proofs.Numerals
import StepControl.Proofs.Settings

namespace StepControl

open StepControl.Action

/-- a way of making delays gives one exactly where the length that it is asked for is not zero, and then one of that length -/
def Keeps {α : Type} (make : α → Option Delay) (asked : α → Nat → Prop) : Prop :=
  ∀ a total, (∃ d, make a = some d ∧ d.total = total) ↔ asked a total ∧ 0 < total

theorem toOption_eq_some_iff {ε α : Type} {r : Except ε α} {a : α} : r.toOption = some a ↔ r = .ok a := by
  cases r <;> simp [Except.toOption]

/-! ## Delays by themselves -/

namespace Delay

open Text

variable {d e : Delay} {m : UInt64} {s : Span}

/-- a delay of a number of milliseconds is that long -/
theorem total_of_ofMillis (h : ofMillis m = .ok d) : m ≠ 0 ∧ d.total = m.toNat * nanosPerMilli := by
  unfold ofMillis at h
  split at h
  case isTrue => cases h
  case isFalse hm =>
    obtain rfl := Except.ok.inj h
    exact ⟨hm, Span.total_ofMillis m⟩

theorem ofMillis_zero : ofMillis 0 = .error (.invalidDelay "0") := dif_pos rfl

theorem keeps_ofMillis :
    Keeps (fun m => (ofMillis m).toOption) fun m total => total = m.toNat * nanosPerMilli := by
  intro m total
  simp only [toOption_eq_some_iff]
  constructor
  · rintro ⟨d, hd, rfl⟩
    exact ⟨(total_of_ofMillis hd).2, d.positive⟩
  · rintro ⟨rfl, hpositive⟩
    have hm : m ≠ 0 := by
      rintro rfl
      exact absurd hpositive (by decide)
    obtain ⟨d, hd, -⟩ := exists_ofMillis hm
    exact ⟨d, hd, (total_of_ofMillis hd).2⟩

/-- a delay of a span is that span -/
theorem ofSpan_eq_ok_iff : ofSpan s = .ok d ↔ s = d.span := by
  rw [← toOption_eq_some_iff, ofSpan_toOption_eq_some_iff]

theorem keeps_ofSpan : Keeps (fun s => (ofSpan s).toOption) fun s total => total = s.total := by
  intro s total
  simp only [toOption_eq_some_iff, ofSpan_eq_ok_iff]
  constructor
  · rintro ⟨d, rfl, rfl⟩
    exact ⟨rfl, d.positive⟩
  · rintro ⟨rfl, hpositive⟩
    exact ⟨⟨s, hpositive⟩, rfl, rfl⟩

/-- the length that a text names -/
def Names (text : String) (total : Nat) : Prop :=
  ∃ core n, Trimmed text.toList core ∧ Numeral core n ∧ n ≤ 2 ^ 64 - 1 ∧ total = n * nanosPerMilli

theorem keeps_parse : Keeps (fun text => (parse text).toOption) Names := by
  intro text total
  simp only [toOption_eq_some_iff]
  constructor
  · rintro ⟨d, hd, rfl⟩
    unfold parse at hd
    split at hd
    case h_1 => cases hd
    case h_2 m hm =>
      have hlt := m.toNat_lt
      exact ⟨⟨_, m.toNat, trimmed_trim _, word?_eq_some_iff.1 hm, by omega, (total_of_ofMillis hd).2⟩, d.positive⟩
  · rintro ⟨⟨core, n, htrimmed, hn, hle, rfl⟩, hpositive⟩
    rw [← toNat_word hle] at hn hpositive ⊢
    rw [parse_of_numeral htrimmed hn]
    simpa only [toOption_eq_some_iff] using (keeps_ofMillis _ _).2 ⟨rfl, hpositive⟩

/-- the length that JSON tells -/
def Tells (j : Json) (total : Nat) : Prop :=
  ∃ secs nanos, Parts secs nanos j ∧ Fits secs nanos ∧ total = secs * nanosPerSecond + nanos

theorem keeps_ofJson : Keeps ofJson? Tells := by
  intro j total
  constructor
  · rintro ⟨d, hd, rfl⟩
    obtain ⟨hparts, hfits, htotal⟩ := ofJson?_eq_some_iff.1 hd
    exact ⟨⟨_, _, hparts, hfits, htotal⟩, d.positive⟩
  · rintro ⟨⟨secs, nanos, hparts, hfits, rfl⟩, -⟩
    exact ofJson?_of_parts hparts hfits

/-! ## The length in milliseconds -/

/-- whole milliseconds are counted, and 94 bits are enough to count them -/
theorem millis_lt (d : Delay) : d.millis = d.total / nanosPerMilli ∧ d.millis < 2 ^ 64 * 1000 := by
  have hmillis : d.millis = d.total / nanosPerMilli := d.span.millis_eq_total_div
  have hsecs := d.span.secs.toNat_lt
  have hnanos := d.span.nanos_lt
  refine ⟨hmillis, ?_⟩
  rw [hmillis]
  simp only [Delay.total, Span.total, nanosPerSecond, nanosPerMilli] at *
  omega

/-- the parts of a number of milliseconds fit -/
theorem fits_of_millis (hm : m ≠ 0) : Fits (m.toNat / 1000) (m.toNat % 1000 * nanosPerMilli) ∧
    m.toNat / 1000 * nanosPerSecond + m.toNat % 1000 * nanosPerMilli = m.toNat * nanosPerMilli := by
  have hlt := m.toNat_lt
  have hne : m.toNat ≠ 0 := fun hzero => hm (UInt64.toNat_inj.1 hzero)
  have hsize : UInt64.size = 2 ^ 64 := rfl
  have hsize' : UInt32.size = 2 ^ 32 := rfl
  refine ⟨⟨?_, ?_, ?_, ?_⟩, ?_⟩ <;> simp only [nanosPerSecond, nanosPerMilli, hsize, hsize'] <;> omega

/-! ## The order -/

/-- the order goes by the lengths; two delays that are each no longer than the other are the same -/
theorem le_iff (d e : Delay) : (d.span.le e.span = true ↔ d.total ≤ e.total) ∧
    (d.span.le e.span = true ∧ e.span.le d.span = true ↔ d = e) := by
  have hle : ∀ d e : Delay, d.span.le e.span = true ↔ d.total ≤ e.total := fun d e => Span.le_iff_total_le _ _
  refine ⟨hle d e, ?_⟩
  rw [hle, hle]
  constructor
  · rintro ⟨hde, hed⟩
    exact total_inj (Nat.le_antisymm hde hed)
  · rintro rfl
    exact ⟨Nat.le_refl _, Nat.le_refl _⟩

theorem millis_mono (h : d.span.le e.span = true) : d.millis ≤ e.millis := by
  rw [(millis_lt d).1, (millis_lt e).1]
  exact Nat.div_le_div_right ((le_iff d e).1.1 h)

end Delay

/-! ## Delays of configurations -/

namespace Config

/-- the step delay of a configuration after changes that name no delay of zero: the span, or else the number of milliseconds,
or else what it was -/
def Asks (p : Config × Changes) (total : Nat) : Prop :=
  (∀ m ∈ p.2.delayMillis, m ≠ 0) ∧ (∀ s ∈ p.2.delay, 0 < s.total) ∧
    total = match p.2.delay, p.2.delayMillis with
      | some s, _ => s.total
      | none, some m => m.toNat * nanosPerMilli
      | none, none => p.1.stepDelay.total

/-- the step delay is what the last change made it, if none is refused -/
theorem stepDelay_apply (c : Config) (new : Changes) : (c.apply new).toOption.map stepDelay =
    match new.delayMillis, new.delay with
    | none, none => some c.stepDelay
    | none, some s => (Delay.ofSpan s).toOption
    | some m, none => (Delay.ofMillis m).toOption
    | some m, some s => (Delay.ofMillis m).toOption.bind fun _ => (Delay.ofSpan s).toOption := by
  rcases new with ⟨_ | m, _ | s, optimize, size, raw⟩
  · cases size <;> rfl
  · simp only [apply]
    generalize Delay.ofSpan s = made
    cases made <;> cases size <;> rfl
  · simp only [apply]
    generalize Delay.ofMillis m = made
    cases made <;> cases size <;> rfl
  · simp only [apply]
    generalize Delay.ofMillis m = made
    generalize Delay.ofSpan s = last
    cases made <;> cases last <;> cases size <;> rfl

theorem keeps_apply : Keeps (fun p : Config × Changes => (p.1.apply p.2).toOption.map stepDelay) Asks := by
  rintro ⟨c, new⟩ total
  have hmillis := fun m => Delay.keeps_ofMillis m total
  have hspan := fun s => Delay.keeps_ofSpan s total
  dsimp only at hmillis hspan ⊢
  rw [stepDelay_apply, Asks]
  rcases new with ⟨_ | m, _ | s, optimize, size, raw⟩ <;> dsimp only
  · constructor
    · rintro ⟨d, hd, rfl⟩
      obtain rfl := Option.some.inj hd
      exact ⟨⟨nofun, nofun, rfl⟩, c.stepDelay.positive⟩
    · rintro ⟨⟨-, -, rfl⟩, -⟩
      exact ⟨c.stepDelay, rfl, rfl⟩
  · rw [hspan]
    constructor
    · rintro ⟨rfl, hpositive⟩
      exact ⟨⟨nofun, by simpa using hpositive, rfl⟩, hpositive⟩
    · rintro ⟨⟨-, -, rfl⟩, hpositive⟩
      exact ⟨rfl, hpositive⟩
  · rw [hmillis]
    constructor
    · rintro ⟨rfl, hpositive⟩
      have hm : m ≠ 0 := by
        rintro rfl
        exact absurd hpositive (by decide)
      exact ⟨⟨by simpa using hm, nofun, rfl⟩, hpositive⟩
    · rintro ⟨⟨-, -, rfl⟩, hpositive⟩
      exact ⟨rfl, hpositive⟩
  · by_cases hm : m = 0
    · -- the span does not make up for a number of milliseconds that is refused
      rw [hm, Delay.ofMillis_zero]
      simp [Except.toOption]
    · obtain ⟨d, hd, -⟩ := Delay.exists_ofMillis hm
      rw [toOption_eq_some_iff.2 hd, Option.bind_some, hspan]
      constructor
      · rintro ⟨rfl, hpositive⟩
        exact ⟨⟨by simpa using hm, by simpa using hpositive, rfl⟩, hpositive⟩
      · rintro ⟨⟨-, -, rfl⟩, hpositive⟩
        exact ⟨rfl, hpositive⟩

/-- the length that the JSON of a configuration tells -/
def Tells (j : Json) (total : Nat) : Prop :=
  ∃ (stepDelay : Json) (optimize : Bool) (channelSize : UInt64),
    Json.Record ["step_delay", "optimize", "channel_size"] true
        [stepDelay, .bool optimize, .int channelSize.toNat] j ∧ Delay.Tells stepDelay total

theorem keeps_ofJson : Keeps (fun j => (ofJson? j).map stepDelay) Tells := by
  intro j total
  simp only [Option.map_eq_some_iff, ofJson?_eq_some_iff]
  constructor
  · rintro ⟨_, ⟨c, ⟨hdelay, hrecord⟩, rfl⟩, rfl⟩
    obtain ⟨htells, hpositive⟩ := (Delay.keeps_ofJson _ _).1 ⟨_, Delay.ofJson?_eq_some_iff.2 hdelay, rfl⟩
    exact ⟨⟨_, _, _, hrecord, htells⟩, hpositive⟩
  · rintro ⟨⟨stepDelay, optimize, channelSize, hrecord, htells⟩, hpositive⟩
    obtain ⟨d, hd, htotal⟩ := (Delay.keeps_ofJson _ _).2 ⟨htells, hpositive⟩
    exact ⟨d, ⟨⟨d, optimize, channelSize⟩, ⟨Delay.ofJson?_eq_some_iff.1 hd, hrecord⟩, rfl⟩, htotal⟩

end Config

/-! ## Delays of controllers -/

namespace Controller

variable {I L P : Type} [Interpreter I] [Loader L I] [Presenter P] {c : Controller I L P} {past : List Applied}
  {now : Instant} {op : Operation} {m : UInt64}

/-- a controller is told a delay as a number of milliseconds; zero is refused, and everything stays as it was -/
theorem gives_setDelay (hop : op.plain = .setDelay m) : Gives (perform now op : Drive I L P Reply) c fun reply d _ =>
    if m = 0 then reply.toResult = .error (.invalidDelay "0") ∧ d = c
    else reply.toResult = .ok () ∧ d.delay.total = m.toNat * nanosPerMilli := by
  have hsetter : op.isSetter = true := by rw [Operation.isSetter, hop]
  refine (perform_setsOnly now op c hsetter).imp ?_
  rintro reply d j ⟨-, hset⟩
  rw [hop] at hset
  split
  case isTrue hm =>
    subst hm
    exact hset
  case isFalse hm =>
    obtain ⟨delay, hdelay, -⟩ := Delay.exists_ofMillis hm
    simp only [writing, hdelay, Except.map] at hset
    obtain ⟨hreply, rfl⟩ := hset
    exact ⟨hreply, (Delay.total_of_ofMillis hdelay).2⟩

/-- the delay of a controller is that of its configuration, or one that it was told since -/
theorem Since.delay_cases {config : Config} {loader : L} {presenter : P}
    (h : Since (ofConfig config loader presenter) past c) :
    c.delay = config.stepDelay ∨ ∃ e ∈ past, ∃ m, e.operation.plain = .setDelay m ∧ m ≠ 0 ∧
      c.delay.total = m.toNat * nanosPerMilli := by
  have hdelay : c.delay = (latest Applied.pace? past).getD config.stepDelay := congrArg Settings.delay h.settings_eq
  cases hlatest : latest Applied.pace? past with
  | none =>
    rw [hlatest] at hdelay
    exact Or.inl hdelay
  | some d =>
    rw [hlatest, Option.getD_some] at hdelay
    obtain ⟨e, he, hpace⟩ := List.mem_filterMap.1 (List.mem_of_getLast? hlatest)
    unfold Applied.pace? at hpace
    split at hpace
    case h_1 m hplain _ =>
      obtain ⟨hm, htotal⟩ := Delay.total_of_ofMillis (toOption_eq_some_iff.1 hpace)
      exact Or.inr ⟨e, he, m, hplain, hm, by rw [hdelay, htotal]⟩
    case h_2 => cases hpace

end Controller

/-! ## All ways -/

/-- a delay of `m` milliseconds, in whatever way it was asked for, with what is read off it -/
structure Delay.IsMillis (m : UInt64) (d : Delay) : Prop where
  ofMillis : ofMillis m = .ok d
  ofSpan : ∀ s : Span, s.total = m.toNat * nanosPerMilli → Delay.ofSpan s = .ok d
  parse : parse (toString m.toNat) = .ok d
  ofJson : ∀ j, Parts (m.toNat / 1000) (m.toNat % 1000 * nanosPerMilli) j → ofJson? j = some d
  millis : d.millis = m.toNat
  display : d.display = toString m.toNat ++ "ms"

theorem Delay.exists_isMillis {m : UInt64} (hm : m ≠ 0) : ∃ d, Delay.IsMillis m d := by
  obtain ⟨d, hd, hspan⟩ := exists_ofMillis hm
  have htotal : d.total = m.toNat * nanosPerMilli := (total_of_ofMillis hd).2
  have hmillis : d.millis = m.toNat := millis_of_span hspan
  refine ⟨d, hd, ?_, ?_, ?_, hmillis, by rw [display, hmillis]⟩
  · intro s hs
    exact ofSpan_eq_ok_iff.2 (Span.total_inj (hs.trans htotal.symm))
  · have hnumeral := Text.numeral_repr m.toNat
    have htrimmed := hnumeral.trimmed (List.forall_mem_nil _) (List.forall_mem_nil _)
    rw [List.nil_append, List.append_nil] at htrimmed
    rw [parse_of_numeral htrimmed hnumeral, hd]
  · intro j hj
    obtain ⟨hfits, hsum⟩ := fits_of_millis hm
    obtain ⟨e, he, hlength⟩ := ofJson?_of_parts hj hfits
    rw [he, total_inj (hlength.trans (hsum.trans htotal.symm))]

/-- **All ways of making a delay agree.** From one millisecond on, a number of milliseconds, a span of that length, the text
of the number and the JSON of its seconds and nanoseconds give the same delay, which shows that number. A span is kept as it
is, and refused where it is zero. Whatever is asked for a delay gives one exactly where the length asked for is not zero, and
one of that length: the ways above, configurations that are changed or read, and requests to a controller, whose delay is
that of its configuration or one that it was told since. A delay is counted in whole milliseconds, at most 2^64 * 1000 of
them; and the order of delays is the total order of their lengths, along which the milliseconds do not decrease. -/
theorem delays_agree (I L P : Type) [Interpreter I] [Loader L I] [Presenter P] :
    (∀ m : UInt64, m ≠ 0 → ∃ d, Delay.IsMillis m d) ∧
      (∀ s : Span, (s.total = 0 ↔ Delay.ofSpan s = .error (.invalidDelay "0ns")) ∧
        ∀ d, Delay.ofSpan s = .ok d ↔ d.span = s) ∧
      (Keeps (fun m => (Delay.ofMillis m).toOption) (fun m total => total = m.toNat * nanosPerMilli) ∧
        Keeps (fun s => (Delay.ofSpan s).toOption) (fun s total => total = s.total) ∧
        Keeps (fun text => (Delay.parse text).toOption) Delay.Names ∧ Keeps Delay.ofJson? Delay.Tells ∧
        Keeps (fun p : Config × Config.Changes => (p.1.apply p.2).toOption.map Config.stepDelay) Config.Asks ∧
        Keeps (fun j => (Config.ofJson? j).map Config.stepDelay) Config.Tells) ∧
      (∀ (c : Controller I L P) (now : Instant) (op : Operation) (m : UInt64), op.plain = .setDelay m →
        Gives (Controller.perform now op : Drive I L P Reply) c fun reply d _ =>
          if m = 0 then reply.toResult = .error (.invalidDelay "0") ∧ d = c
          else reply.toResult = .ok () ∧ d.delay.total = m.toNat * nanosPerMilli) ∧
      (∀ (config : Config) (loader : L) (presenter : P) (past : List Applied) (c : Controller I L P),
        Controller.Since (Controller.ofConfig config loader presenter) past c →
          c.delay = config.stepDelay ∨ ∃ e ∈ past, ∃ m, e.operation.plain = .setDelay m ∧ m ≠ 0 ∧
            c.delay.total = m.toNat * nanosPerMilli) ∧
      (∀ d : Delay, d.millis = d.total / nanosPerMilli ∧ d.millis < 2 ^ 64 * 1000) ∧
      ∀ a b : Delay, (a.span.le b.span = true ↔ a.total ≤ b.total) ∧
        (a.span.le b.span = true ∨ b.span.le a.span = true) ∧
        (a.span.le b.span = true ∧ b.span.le a.span = true ↔ a = b) ∧
        (a.span.le b.span = true → a.millis ≤ b.millis) := by
  refine ⟨fun m hm => Delay.exists_isMillis hm, ?_, ?_, ?_, ?_, Delay.millis_lt, ?_⟩
  · intro s
    refine ⟨?_, fun d => by rw [Delay.ofSpan_eq_ok_iff, eq_comm]⟩
    unfold Delay.ofSpan
    split
    case isTrue hpositive => simp; omega
    case isFalse hzero => simp; omega
  · exact ⟨Delay.keeps_ofMillis, Delay.keeps_ofSpan, Delay.keeps_parse, Delay.keeps_ofJson, Config.keeps_apply,
      Config.keeps_ofJson⟩
  · exact fun c now op m hop => Controller.gives_setDelay hop
  · exact fun config loader presenter past c h => h.delay_cases
  · intro a b
    refine ⟨(Delay.le_iff a b).1, ?_, (Delay.le_iff a b).2, Delay.millis_mono⟩
    rw [(Delay.le_iff a b).1, (Delay.le_iff b a).1]
    exact Nat.le_total _ _

/-- the greatest number of milliseconds, the longest span, and a request for 20 ms to a session that is running -/
theorem delays_agree_longest :
    (∃ d, Delay.IsMillis 18446744073709551615 d) ∧
      (∃ d, Delay.ofSpan ⟨18446744073709551615, 999999999, by decide⟩ = .ok d ∧ d.millis = 18446744073709551615999) ∧
      (∃ (past : List Applied) (c : Controller Recital (List Recital) Unit),
        Controller.Since (Controller.ofConfig {} [] ()) past c ∧ c.phase = .running ∧ c.delay.millis = 20 ∧
          c.delay ≠ (default : Config).stepDelay ∧
          ∃ e ∈ past, ∃ m, e.operation.plain = .setDelay m ∧ m ≠ 0 ∧ c.delay.total = m.toNat * nanosPerMilli) := by
  obtain ⟨hmillis, hspans, -, -, hcontrollers, hlengths, -⟩ := delays_agree Recital (List Recital) Unit
  refine ⟨hmillis _ (by decide), ?_, ?_⟩
  · refine ⟨⟨⟨18446744073709551615, 999999999, by decide⟩, by decide⟩, ((hspans _).2 _).2 rfl, ?_⟩
    rw [(hlengths _).1]
    rfl
  · let made : Controller Recital (List Recital) Unit := Controller.ofConfig {} [] ()
    have hmade : Controller.Since made [] made := .refl
    have htold := (hmade.perform 0 .run rfl).perform 1 (.dispatch (.setDelay 20)) rfl
    refine ⟨_, _, htold, rfl, by decide +kernel, by decide +kernel, ?_⟩
    rcases hcontrollers _ _ _ _ _ htold with hsame | hset
    · exact absurd hsame (by decide +kernel)
    · exact hset

end StepControl
