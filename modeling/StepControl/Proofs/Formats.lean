/-
Which JSON values are read, and as what.

For every type with a JSON form there is a relation `Spelled` that says which values spell a value of the type, in the words
of JSON alone:
- a variant without payload is its name, or an object with the name as its one key and the value null;
- a variant with a payload is an object with its name as the one key;
- a record is the list of its values, or an object with every key once, in any order; where it is open, other keys do not
  matter;
- a number is an integer in range, without a fraction or an exponent.
A delay is a record of seconds and nanoseconds that fit (`Delay.Fits`): the nanoseconds may be a second or more, and are
carried over as long as the seconds still fit, and both together are not zero.

Records are the part that needs an argument:
- `mapM_only?_eq_some_iff`: looking up one key after the other finds the values of a record exactly where the fields are
  those of the record, with or without others, in any order. The induction is on the keys, and each key takes its one field
  out.
- `record?_eq_some_iff`: so records are read from their two spellings and from nothing else.

Results, type by type (`Phase.ofJson?_eq_some_iff` and its like), and `formats_exact`: the decoders read exactly what is
spelled, what is written reads back (`Format`), and reading a delay and writing it again gives the normal form of its total,
which is a fixed point.

Premises: none. That these are the forms which the decoders' derivation rules give is how the model states them
(`Json/Codec`).
-/
import Mathlib.Data.List.Perm.Basic
import StepControl.Json.Codec

namespace StepControl

namespace Json

/-! ## Records of JSON -/

variable {keys : List String} {values : List Json} {fields : List (String × Json)} {key : String} {value : Json}

/-- the fields are those of a record, and others that it does not know, in any order -/
structure Fields (keys : List String) (values : List Json) (others fields : List (String × Json)) : Prop where
  length : values.length = keys.length
  place : fields.Perm (keys.zip values ++ others)
  unknown : ∀ field ∈ others, field.1 ∉ keys

/-- a key occurs exactly once where its only field is the one found under it -/
theorem only?_eq_some_iff : only? key fields = some value ↔ fields.filter (·.1 == key) = [(key, value)] := by
  unfold only?
  constructor
  · intro h
    split at h
    case h_1 field hone =>
      have hmem : field ∈ fields.filter (·.1 == key) := by
        rw [hone]
        exact List.mem_singleton_self field
      have hkey : field.1 = key := by simpa using (List.mem_filter.1 hmem).2
      have hvalue : field.2 = value := Option.some.inj h
      rw [hone, ← hkey, ← hvalue]
    case h_2 => cases h
  · intro h
    rw [h]

/-- the value of the first key, and the rest of the record -/
theorem Fields.cons_iff {others : List (String × Json)} (hkey : key ∉ keys) :
    Fields (key :: keys) (value :: values) others fields ↔
      Fields keys values ((key, value) :: others) fields ∧ ∀ field ∈ others, field.1 ≠ key := by
  have hmiddle : (keys.zip values ++ (key, value) :: others).Perm ((key, value) :: (keys.zip values ++ others)) :=
    List.perm_middle
  constructor
  · rintro ⟨hlength, hplace, hunknown⟩
    refine ⟨⟨by simpa using hlength, hplace.trans hmiddle.symm, ?_⟩, ?_⟩
    · intro field hfield
      rcases List.mem_cons.1 hfield with rfl | hother
      · exact hkey
      · intro hmem
        exact hunknown field hother (List.mem_cons_of_mem key hmem)
    · rintro field hfield rfl
      exact hunknown field hfield List.mem_cons_self
  · rintro ⟨⟨hlength, hplace, hunknown⟩, hothers⟩
    refine ⟨by simpa using hlength, hplace.trans hmiddle, ?_⟩
    intro field hfield hmem
    rcases List.mem_cons.1 hmem with hsame | hknown
    · exact hothers field hfield hsame
    · exact hunknown field (List.mem_cons_of_mem _ hfield) hknown

/-- the fields under a key that the record does not know are those among the others -/
theorem Fields.filter_perm {others : List (String × Json)} (h : Fields keys values others fields) (hkey : key ∉ keys) :
    (fields.filter (·.1 == key)).Perm (others.filter (·.1 == key)) := by
  have hknown : (keys.zip values).filter (·.1 == key) = [] := by
    rw [List.filter_eq_nil_iff]
    intro field hfield hsame
    have hmem := (List.of_mem_zip hfield).1
    rw [show field.1 = key by simpa using hsame] at hmem
    exact hkey hmem
  have hfilter := h.place.filter (·.1 == key)
  rwa [List.filter_append, hknown, List.nil_append] at hfilter

/-- **A record is read from its fields**, whatever their order: every key that it knows occurs once, and gives its value. -/
theorem mapM_only?_eq_some_iff (hkeys : keys.Nodup) :
    keys.mapM (only? · fields) = some values ↔ ∃ others, Fields keys values others fields := by
  induction keys generalizing values with
  | nil =>
    constructor
    · intro h
      obtain rfl : [] = values := by simpa using h
      exact ⟨fields, rfl, List.Perm.refl _, by simp⟩
    · rintro ⟨others, hlength, -, -⟩
      obtain rfl : values = [] := List.length_eq_zero_iff.1 hlength
      rfl
  | cons key keys ih =>
    obtain ⟨hkey, hrest⟩ := List.nodup_cons.1 hkeys
    constructor
    · intro h
      simp only [List.mapM_cons, Option.bind_eq_bind, Option.bind_eq_some_iff] at h
      obtain ⟨value, hvalue, values, hvalues, hpair⟩ := h
      obtain rfl := Option.some.inj hpair
      obtain ⟨others, hfields⟩ := (ih hrest).1 hvalues
      -- the field of the first key is among those that the rest of the record does not know
      have hone : others.filter (·.1 == key) = [(key, value)] := by
        rw [← List.perm_singleton, ← only?_eq_some_iff.1 hvalue]
        exact (hfields.filter_perm hkey).symm
      have hparts : others.Perm ((key, value) :: others.filter (!·.1 == key)) := by
        have hsplit := List.filter_append_perm (·.1 == key) others
        rw [hone] at hsplit
        exact hsplit.symm
      refine ⟨others.filter (!·.1 == key), (Fields.cons_iff hkey).2 ⟨⟨hfields.length, ?_, ?_⟩, ?_⟩⟩
      · exact hfields.place.trans (List.Perm.append_left _ hparts)
      · intro field hfield
        exact hfields.unknown field (hparts.symm.subset hfield)
      · intro field hfield
        simpa using (List.mem_filter.1 hfield).2
    · rintro ⟨others, hfields⟩
      obtain ⟨value, values, rfl⟩ : ∃ value rest, values = value :: rest := by
        have hlength := hfields.length
        cases values with
        | nil => simp at hlength
        | cons value rest => exact ⟨value, rest, rfl⟩
      obtain ⟨hfields, hothers⟩ := (Fields.cons_iff hkey).1 hfields
      have hvalue : only? key fields = some value := by
        rw [only?_eq_some_iff, ← List.perm_singleton]
        refine (hfields.filter_perm hkey).trans ?_
        have hnone : others.filter (·.1 == key) = [] := by
          rw [List.filter_eq_nil_iff]
          intro field hfield
          simpa using hothers field hfield
        simp [hnone]
      have hvalues := (ih hrest).2 ⟨_, hfields⟩
      simp [List.mapM_cons, hvalue, hvalues]

/-- a record with these keys and values: the values in order, or an object that has every key once, each with its value. An
open record may have other keys as well -/
inductive Record (keys : List String) (isOpen : Bool) (values : List Json) : Json → Prop where
  | list (length : values.length = keys.length) : Record keys isOpen values (.list values)
  | object {others fields : List (String × Json)} (fields_eq : Fields keys values others fields)
      (closed : isOpen = false → others = []) : Record keys isOpen values (.object fields)

/-- the fields of a record in order spell it -/
theorem record_zip (length : values.length = keys.length) (isOpen : Bool) :
    Record keys isOpen values (.object (keys.zip values)) := by
  have hfields : Fields keys values [] (keys.zip values) := ⟨length, by rw [List.append_nil], nofun⟩
  exact .object hfields fun _ => rfl

/-- **Records are read from their two spellings and from nothing else.** -/
theorem record?_eq_some_iff {closed : Bool} {j : Json} (hkeys : keys.Nodup) :
    j.record? keys closed = some values ↔ Record keys (!closed) values j := by
  cases j with
  | list items =>
    simp only [record?]
    constructor
    · intro h
      split at h
      case isTrue hlength =>
        obtain rfl := Option.some.inj h
        exact .list hlength
      case isFalse => cases h
    · rintro ⟨hlength⟩
      exact if_pos hlength
  | object fields =>
    -- a closed record has a key that it does not know exactly where there are fields of unknown keys
    have hstranger : ∀ {others}, Fields keys values others fields →
        (fields.any (fun field => !keys.contains field.1) = true ↔ others ≠ []) := by
      intro others hfields
      rw [List.any_eq_true]
      constructor
      · rintro ⟨field, hfield, hnot⟩ rfl
        have hmem := hfields.place.subset hfield
        rw [List.append_nil] at hmem
        simp [(List.of_mem_zip hmem).1] at hnot
      · intro hothers
        obtain ⟨field, hfield⟩ := List.exists_mem_of_ne_nil others hothers
        refine ⟨field, hfields.place.symm.subset (List.mem_append_right _ hfield), ?_⟩
        simpa using hfields.unknown field hfield
    simp only [record?]
    constructor
    · intro h
      split at h
      case isTrue => cases h
      case isFalse hknown =>
        obtain ⟨others, hfields⟩ := (mapM_only?_eq_some_iff hkeys).1 h
        refine .object hfields fun hclosed => ?_
        have hshut : closed = true := by simpa using hclosed
        by_contra hothers
        apply hknown
        rw [hshut, Bool.true_and]
        exact (hstranger hfields).2 hothers
    · rintro (_ | ⟨hfields, hclosed⟩)
      rw [if_neg, (mapM_only?_eq_some_iff hkeys).2 ⟨_, hfields⟩]
      intro hboth
      obtain ⟨hshut, hany⟩ := Bool.and_eq_true_iff.1 hboth
      exact (hstranger hfields).1 hany (hclosed (by simp [hshut]))
  | _ =>
    constructor
    · intro h
      cases h
    · intro h
      cases h

/-! ## Numbers, truth values, texts and variants -/

/-- a natural number is read as it is, below its bound, and nothing else is -/
theorem natBelow?_eq_some_iff {bound n : Nat} {j : Json} : j.natBelow? bound = some n ↔ j = .int n ∧ n < bound := by
  constructor
  · intro h
    cases j with
    | int k =>
      cases k with
      | ofNat m =>
        simp only [natBelow?] at h
        split at h
        case isTrue hlt =>
          obtain rfl := Option.some.inj h
          exact ⟨rfl, hlt⟩
        case isFalse => cases h
      | negSucc m => cases h
    | _ => cases h
  · rintro ⟨rfl, hlt⟩
    exact if_pos hlt

theorem word64?_eq_some_iff {w : UInt64} {j : Json} : j.word64? = some w ↔ j = .int w.toNat := by
  simp only [word64?, Option.map_eq_some_iff, natBelow?_eq_some_iff]
  constructor
  · rintro ⟨n, ⟨rfl, hlt⟩, rfl⟩
    rw [UInt64.toNat_ofNat_of_lt' hlt]
  · rintro rfl
    exact ⟨w.toNat, ⟨rfl, w.toNat_lt_size⟩, UInt64.ofNat_toNat⟩

theorem word32?_eq_some_iff {w : UInt32} {j : Json} : j.word32? = some w ↔ j = .int w.toNat := by
  simp only [word32?, Option.map_eq_some_iff, natBelow?_eq_some_iff]
  constructor
  · rintro ⟨n, ⟨rfl, hlt⟩, rfl⟩
    rw [UInt32.toNat_ofNat_of_lt' hlt]
  · rintro rfl
    exact ⟨w.toNat, ⟨rfl, w.toNat_lt_size⟩, UInt32.ofNat_toNat⟩

theorem bool?_eq_some_iff {b : Bool} {j : Json} : j.bool? = some b ↔ j = .bool b := by
  cases j <;> simp [bool?]

theorem text?_eq_some_iff {s : String} {j : Json} : j.text? = some s ↔ j = .text s := by
  cases j <;> simp [text?]

/-- a variant is its name, or an object with its name as the one key -/
theorem variant?_cases (j : Json) :
    (∃ name, j = .text name ∧ j.variant? = some (name, none)) ∨
      (∃ name payload, j = .object [(name, payload)] ∧ j.variant? = some (name, some payload)) ∨
      ((∀ name, j ≠ .text name) ∧ (∀ field, j ≠ .object [field]) ∧ j.variant? = none) := by
  cases j with
  | text name => exact Or.inl ⟨name, rfl, rfl⟩
  | object fields =>
    rcases fields with _ | ⟨⟨name, payload⟩, _ | ⟨next, rest⟩⟩
    · exact Or.inr (Or.inr ⟨nofun, nofun, rfl⟩)
    · exact Or.inr (Or.inl ⟨name, payload, rfl, rfl⟩)
    · exact Or.inr (Or.inr ⟨nofun, nofun, rfl⟩)
  | _ => exact Or.inr (Or.inr ⟨nofun, nofun, rfl⟩)

/-- a variant without payload is its name, or an object with that one key and the value null -/
theorem unitVariant?_eq_some_iff {name : String} {j : Json} :
    j.unitVariant? = some name ↔ j = .text name ∨ j = .object [(name, .null)] := by
  unfold unitVariant?
  rcases variant?_cases j with ⟨name', rfl, hj⟩ | ⟨name', payload, rfl, hj⟩ | ⟨htext, hobject, hj⟩
  · simp [hj]
  · rw [hj]
    cases payload <;> simp [isNull]
  · rw [hj]
    constructor
    · intro h
      cases h
    · rintro (h | h)
      · exact absurd h (htext name)
      · exact absurd h (hobject _)

/-- a variant with a payload is an object with its name as the one key -/
theorem payloadVariant?_eq_some_iff {name : String} {payload j : Json} :
    j.payloadVariant? = some (name, payload) ↔ j = .object [(name, payload)] := by
  unfold payloadVariant?
  rcases variant?_cases j with ⟨name', rfl, hj⟩ | ⟨name', payload', rfl, hj⟩ | ⟨-, hobject, hj⟩
  · simp [hj]
  · simp [hj]
  · rw [hj]
    constructor
    · intro h
      cases h
    · intro h
      exact absurd h (hobject _)

end Json

/-! ## Variants -/

/-- a phase is its name, or an object with that one key and the value null -/
inductive Phase.Spelled (p : Phase) : Json → Prop where
  | name : Spelled p (.text p.code)
  | tagged : Spelled p (.object [(p.code, .null)])

theorem Phase.find_code (p : Phase) : Phase.all.find? (·.code == p.code) = some p := by
  cases p <;> rfl

theorem Phase.ofJson?_eq_some_iff {p : Phase} {j : Json} : Phase.ofJson? j = some p ↔ p.Spelled j := by
  unfold Phase.ofJson?
  rw [Option.bind_eq_some_iff]
  constructor
  · rintro ⟨name, hname, hp⟩
    obtain rfl : p.code = name := by simpa using List.find?_some hp
    rcases Json.unitVariant?_eq_some_iff.1 hname with rfl | rfl
    · exact .name
    · exact .tagged
  · intro h
    refine ⟨p.code, ?_, p.find_code⟩
    cases h with
    | name => exact Json.unitVariant?_eq_some_iff.2 (Or.inl rfl)
    | tagged => exact Json.unitVariant?_eq_some_iff.2 (Or.inr rfl)

/-- an intent without payload is its name, or an object with that one key and the value null; one with a payload is an object
with its name as the one key -/
inductive Intent.Spelled : Intent → Json → Prop where
  | name {intent : Intent} {name : String} (alone : intent.toJson = .text name) : Spelled intent (.text name)
  | tagged {intent : Intent} {name : String} (alone : intent.toJson = .text name) : Spelled intent (.object [(name, .null)])
  | load (text : String) : Spelled (.load text) (.object [("Load", .text text)])
  | supplyInput (text : String) : Spelled (.supplyInput text) (.object [("SupplyInput", .text text)])
  | setDelay (millis : UInt64) : Spelled (.setDelay millis) (.object [("SetDelay", .int millis.toNat)])
  | setOptimize (on : Bool) : Spelled (.setOptimize on) (.object [("SetOptimize", .bool on)])

/-- the names alone are those of the intents that are written so -/
theorem Intent.ofUnit?_eq_some_iff {intent : Intent} {name : String} :
    Intent.ofUnit? name = some intent ↔ intent.toJson = .text name := by
  constructor
  · intro h
    unfold Intent.ofUnit? at h
    split at h
    all_goals first
      | obtain rfl := Option.some.inj h
        rfl
      | cases h
  · intro h
    cases intent with
    | load => cases h
    | supplyInput => cases h
    | setDelay => cases h
    | setOptimize => cases h
    | _ =>
      cases h
      rfl

/-- a name with a payload is read as one of the four intents that have one -/
theorem Intent.ofPayload?_eq_some {intent : Intent} {name : String} {payload : Json}
    (h : Intent.ofPayload? name payload = some intent) : intent.Spelled (.object [(name, payload)]) := by
  unfold Intent.ofPayload? at h
  split at h
  case h_1 =>
    obtain ⟨text, htext, rfl⟩ := Option.map_eq_some_iff.1 h
    rw [Json.text?_eq_some_iff.1 htext]
    exact .load text
  case h_2 =>
    obtain ⟨text, htext, rfl⟩ := Option.map_eq_some_iff.1 h
    rw [Json.text?_eq_some_iff.1 htext]
    exact .supplyInput text
  case h_3 =>
    obtain ⟨millis, hmillis, rfl⟩ := Option.map_eq_some_iff.1 h
    rw [Json.word64?_eq_some_iff.1 hmillis]
    exact .setDelay millis
  case h_4 =>
    obtain ⟨on, hon, rfl⟩ := Option.map_eq_some_iff.1 h
    rw [Json.bool?_eq_some_iff.1 hon]
    exact .setOptimize on
  case h_5 => cases h

theorem Intent.ofJson?_eq_some_iff {intent : Intent} {j : Json} : Intent.ofJson? j = some intent ↔ intent.Spelled j := by
  constructor
  · intro h
    unfold Intent.ofJson? at h
    split at h
    case h_1 unit hunit =>
      obtain rfl := Option.some.inj h
      obtain ⟨name, hname, hcode⟩ := Option.bind_eq_some_iff.1 hunit
      have halone := Intent.ofUnit?_eq_some_iff.1 hcode
      rcases Json.unitVariant?_eq_some_iff.1 hname with rfl | rfl
      · exact .name halone
      · exact .tagged halone
    case h_2 =>
      obtain ⟨⟨name, payload⟩, hvariant, hpayload⟩ := Option.bind_eq_some_iff.1 h
      obtain rfl := Json.payloadVariant?_eq_some_iff.1 hvariant
      exact Intent.ofPayload?_eq_some hpayload
  · intro h
    cases h with
    | @name _ name alone =>
      have hname : (Json.text name).unitVariant? = some name := Json.unitVariant?_eq_some_iff.2 (Or.inl rfl)
      simp [Intent.ofJson?, hname, Intent.ofUnit?_eq_some_iff.2 alone]
    | @tagged _ name alone =>
      have hname : (Json.object [(name, .null)]).unitVariant? = some name := Json.unitVariant?_eq_some_iff.2 (Or.inr rfl)
      simp [Intent.ofJson?, hname, Intent.ofUnit?_eq_some_iff.2 alone]
    | load text => rfl
    | supplyInput text => rfl
    | setDelay millis =>
      have hmillis : (Json.int millis.toNat).word64? = some millis := Json.word64?_eq_some_iff.2 rfl
      show (Json.int millis.toNat).word64?.map Intent.setDelay = some (.setDelay millis)
      rw [hmillis]
      rfl
    | setOptimize on => rfl

/-! ## Records -/

/-- controls are a record of their flags, where unknown keys do not matter -/
def Controls.Spelled (c : Controls) (j : Json) : Prop := Json.Record Controls.keys true (c.flags.map .bool) j

theorem Json.mapM_bool?_eq_some_iff {values : List Json} {flags : List Bool} :
    values.mapM Json.bool? = some flags ↔ values = flags.map .bool := by
  induction values generalizing flags with
  | nil => cases flags <;> simp
  | cons value values ih =>
    simp only [List.mapM_cons, Option.bind_eq_bind, Option.bind_eq_some_iff, Json.bool?_eq_some_iff, ih]
    constructor
    · rintro ⟨flag, rfl, rest, rfl, hflags⟩
      rw [← Option.some.inj hflags]
      rfl
    · intro h
      cases flags with
      | nil => cases h
      | cons flag rest =>
        obtain ⟨hvalue, hvalues⟩ := List.cons.inj h
        exact ⟨flag, hvalue, rest, hvalues, rfl⟩

theorem Controls.ofFlags?_eq_some_iff {c : Controls} {flags : List Bool} :
    Controls.ofFlags? flags = some c ↔ flags = c.flags := by
  constructor
  · intro h
    unfold Controls.ofFlags? at h
    split at h
    case h_1 =>
      obtain rfl := Option.some.inj h
      rfl
    case h_2 => cases h
  · rintro rfl
    rfl

theorem Controls.ofJson?_eq_some_iff {c : Controls} {j : Json} : Controls.ofJson? j = some c ↔ c.Spelled j := by
  have hkeys : Controls.keys.Nodup := by decide
  simp only [Controls.ofJson?, Option.bind_eq_bind, Option.bind_eq_some_iff, Json.record?_eq_some_iff hkeys,
    Json.mapM_bool?_eq_some_iff, Controls.ofFlags?_eq_some_iff]
  constructor
  · rintro ⟨values, hvalues, flags, rfl, rfl⟩
    exact hvalues
  · intro h
    exact ⟨_, h, _, rfl, rfl⟩

/-- seconds and nanoseconds that make a delay: words that are not both zero, where the seconds still fit when the full seconds
among the nanoseconds are carried over to them -/
structure Delay.Fits (secs nanos : Nat) : Prop where
  secs_lt : secs < UInt64.size
  nanos_lt : nanos < UInt32.size
  carry_lt : secs + nanos / nanosPerSecond < UInt64.size
  positive : 0 < secs * nanosPerSecond + nanos

/-- seconds and nanoseconds as a record, and nothing else -/
def Delay.Parts (secs nanos : Nat) (j : Json) : Prop := Json.Record ["secs", "nanos"] false [.int secs, .int nanos] j

/-- a delay is a record of seconds and nanoseconds that fit and have its total; the nanoseconds need not be less than a second -/
inductive Delay.Spelled (d : Delay) (j : Json) : Prop where
  | parts {secs nanos : Nat} (record : Delay.Parts secs nanos j) (fits : Delay.Fits secs nanos)
      (total : d.total = secs * nanosPerSecond + nanos)

/-- a total in its normal form, with less than a second in nanoseconds -/
def Delay.normalForm (total : Nat) : Json :=
  .object [("secs", .int (total / nanosPerSecond : Nat)), ("nanos", .int (total % nanosPerSecond : Nat))]

theorem Span.secs_eq (s : Span) : s.secs.toNat = s.total / nanosPerSecond := by
  have hnanos := s.nanos_lt
  simp only [total, nanosPerSecond] at *
  omega

theorem Span.nanos_eq (s : Span) : s.nanos.toNat = s.total % nanosPerSecond := by
  have hnanos := s.nanos_lt
  simp only [total, nanosPerSecond] at *
  omega

/-- carrying keeps the total -/
theorem Span.total_carried {secs : UInt64} {nanos : UInt32} {s : Span} (h : carried? secs nanos = some s) :
    secs.toNat + nanos.toNat / nanosPerSecond < UInt64.size ∧ s.total = secs.toNat * nanosPerSecond + nanos.toNat := by
  unfold carried? at h
  split at h
  case isTrue hfits =>
    obtain rfl := Option.some.inj h
    refine ⟨hfits, ?_⟩
    have hsecs := UInt64.toNat_ofNat_of_lt' hfits
    rw [total, hsecs]
    simp only [UInt32.toNat_mod, UInt32.reduceToNat, nanosPerSecond]
    omega
  case isFalse => cases h

/-- seconds and nanoseconds are carried where the seconds fit -/
theorem Span.carried?_of_lt {secs : UInt64} {nanos : UInt32}
    (h : secs.toNat + nanos.toNat / nanosPerSecond < UInt64.size) : ∃ s, carried? secs nanos = some s := by
  unfold carried?
  rw [if_pos h]
  exact ⟨_, rfl⟩

theorem Delay.total_inj {d e : Delay} (h : d.total = e.total) : d = e := by
  have hspan : d.span = e.span := Span.total_inj h
  cases d
  cases e
  simp_all

theorem Delay.ofSpan_toOption_eq_some_iff {s : Span} {d : Delay} : (Delay.ofSpan s).toOption = some d ↔ s = d.span := by
  unfold Delay.ofSpan
  constructor
  · intro h
    split at h
    case isTrue =>
      obtain rfl := Option.some.inj h
      rfl
    case isFalse => cases h
  · rintro rfl
    rw [dif_pos d.positive]
    rfl

theorem Delay.ofJson?_of_record {j secs nanos : Json} (h : j.record? ["secs", "nanos"] true = some [secs, nanos]) :
    Delay.ofJson? j = secs.word64?.bind fun secs => nanos.word32?.bind fun nanos =>
      (Span.carried? secs nanos).bind fun span => (Delay.ofSpan span).toOption := by
  unfold Delay.ofJson?
  rw [h]
  rfl

/-- **A delay is read from seconds and nanoseconds that fit**, and has their total. -/
theorem Delay.ofJson?_of_parts {secs nanos : Nat} {j : Json} (record : Delay.Parts secs nanos j)
    (fits : Delay.Fits secs nanos) : ∃ d, Delay.ofJson? j = some d ∧ d.total = secs * nanosPerSecond + nanos := by
  have hvalues : j.record? ["secs", "nanos"] true = some [.int secs, .int nanos] :=
    (Json.record?_eq_some_iff (by decide)).2 record
  have hsecs : (UInt64.ofNat secs).toNat = secs := UInt64.toNat_ofNat_of_lt' fits.secs_lt
  have hnanos : (UInt32.ofNat nanos).toNat = nanos := UInt32.toNat_ofNat_of_lt' fits.nanos_lt
  have hword : (Json.int secs).word64? = some (UInt64.ofNat secs) := by rw [Json.word64?_eq_some_iff, hsecs]
  have hword' : (Json.int nanos).word32? = some (UInt32.ofNat nanos) := by rw [Json.word32?_eq_some_iff, hnanos]
  obtain ⟨s, hs⟩ : ∃ s, Span.carried? (UInt64.ofNat secs) (UInt32.ofNat nanos) = some s := by
    apply Span.carried?_of_lt
    rw [hsecs, hnanos]
    exact fits.carry_lt
  have htotal : s.total = secs * nanosPerSecond + nanos := by
    rw [(Span.total_carried hs).2, hsecs, hnanos]
  have hpositive : 0 < s.total := by
    rw [htotal]
    exact fits.positive
  refine ⟨⟨s, hpositive⟩, ?_, htotal⟩
  rw [Delay.ofJson?_of_record hvalues, hword, hword', Option.bind_some, Option.bind_some, hs, Option.bind_some]
  exact Delay.ofSpan_toOption_eq_some_iff.2 rfl

theorem Delay.ofJson?_eq_some_iff {d : Delay} {j : Json} : Delay.ofJson? j = some d ↔ d.Spelled j := by
  constructor
  · intro h
    unfold Delay.ofJson? at h
    split at h
    case h_1 secs nanos hrecord =>
      simp only [Option.bind_eq_bind, Option.bind_eq_some_iff, Json.word64?_eq_some_iff, Json.word32?_eq_some_iff,
        Delay.ofSpan_toOption_eq_some_iff] at h
      obtain ⟨secs, rfl, nanos, rfl, s, hs, rfl⟩ := h
      obtain ⟨hcarry, htotal⟩ := Span.total_carried hs
      refine .parts ((Json.record?_eq_some_iff (by decide)).1 hrecord) ?_ htotal
      exact ⟨secs.toNat_lt_size, nanos.toNat_lt_size, hcarry, htotal ▸ d.positive⟩
    case h_2 => cases h
  · rintro ⟨hrecord, hfits, htotal⟩
    obtain ⟨e, he, hsame⟩ := Delay.ofJson?_of_parts hrecord hfits
    rw [he, Delay.total_inj (hsame.trans htotal.symm)]

theorem Delay.toJson_eq (d : Delay) : d.toJson = Delay.normalForm d.total := by
  simp only [Delay.toJson, Delay.normalForm, Delay.total, Json.nat, ← d.span.secs_eq, ← d.span.nanos_eq]
  rfl

/-- a configuration is a record of its fields, where unknown keys do not matter -/
inductive Config.Spelled (c : Config) (j : Json) : Prop where
  | parts {stepDelay : Json} (delay : c.stepDelay.Spelled stepDelay)
      (record : Json.Record ["step_delay", "optimize", "channel_size"] true
        [stepDelay, .bool c.optimize, .int c.channelSize.toNat] j)

theorem Config.ofJson?_eq_some_iff {c : Config} {j : Json} : Config.ofJson? j = some c ↔ c.Spelled j := by
  have hkeys : ["step_delay", "optimize", "channel_size"].Nodup := by decide
  unfold Config.ofJson?
  constructor
  · intro h
    split at h
    case h_1 stepDelay optimize channelSize hrecord =>
      simp only [Option.bind_eq_bind, Option.bind_eq_some_iff, Json.word64?_eq_some_iff, Json.bool?_eq_some_iff,
        Delay.ofJson?_eq_some_iff] at h
      obtain ⟨delay, hdelay, on, rfl, size, rfl, hc⟩ := h
      obtain rfl := Option.some.inj hc
      exact .parts hdelay ((Json.record?_eq_some_iff hkeys).1 hrecord)
    case h_2 => cases h
  · rintro ⟨hdelay, hrecord⟩
    rename_i stepDelay
    have hvalues : j.record? ["step_delay", "optimize", "channel_size"] false =
        some [stepDelay, .bool c.optimize, .int c.channelSize.toNat] := (Json.record?_eq_some_iff hkeys).2 hrecord
    have hsize : (Json.int c.channelSize.toNat).word64? = some c.channelSize := Json.word64?_eq_some_iff.2 rfl
    simp only [hvalues, Option.bind_eq_bind, Delay.ofJson?_eq_some_iff.2 hdelay, hsize, Json.bool?, Option.bind_some]
    rfl

def Cell.Spelled (c : Cell) (j : Json) : Prop := j = .int c.index.toNat

theorem Cell.ofJson?_eq_some_iff {c : Cell} {j : Json} : Cell.ofJson? j = some c ↔ c.Spelled j := by
  simp only [Cell.ofJson?, Option.map_eq_some_iff, Json.word64?_eq_some_iff, Cell.Spelled]
  constructor
  · rintro ⟨index, rfl, rfl⟩
    rfl
  · rintro rfl
    exact ⟨c.index, rfl, rfl⟩

/-! ## Formats -/

/-- a JSON form: what is written reads back, and exactly what is spelled is read -/
structure Format {α : Type} (toJson : α → Json) (ofJson? : Json → Option α) (Spelled : α → Json → Prop) : Prop where
  roundTrip : ∀ a, ofJson? (toJson a) = some a
  language : ∀ a j, ofJson? j = some a ↔ Spelled a j

/-- where exactly what is spelled is read, what is written need only be spelled to read back -/
theorem Format.of_spelled {α : Type} {toJson : α → Json} {ofJson? : Json → Option α} {Spelled : α → Json → Prop}
    (language : ∀ a j, ofJson? j = some a ↔ Spelled a j) (written : ∀ a, Spelled a (toJson a)) :
    Format toJson ofJson? Spelled where
  roundTrip a := (language a _).2 (written a)
  language := language

theorem Intent.spelled_toJson (intent : Intent) : intent.Spelled intent.toJson := by
  cases intent with
  | load text => exact .load text
  | supplyInput text => exact .supplyInput text
  | setDelay millis => exact .setDelay millis
  | setOptimize on => exact .setOptimize on
  | _ => exact .name rfl

theorem Controls.spelled_toJson (c : Controls) : c.Spelled c.toJson := Json.record_zip rfl true

theorem Delay.spelled_toJson (d : Delay) : d.Spelled d.toJson := by
  have hsecs : d.span.secs.toNat < UInt64.size := d.span.secs.toNat_lt_size
  have hnanos : d.span.nanos.toNat < nanosPerSecond := d.span.nanos_lt
  have hcarry : d.span.secs.toNat + d.span.nanos.toNat / nanosPerSecond < UInt64.size := by
    rw [Nat.div_eq_of_lt hnanos]
    exact hsecs
  exact .parts (Json.record_zip rfl false) ⟨hsecs, d.span.nanos.toNat_lt_size, hcarry, d.positive⟩ rfl

theorem Config.spelled_toJson (c : Config) : c.Spelled c.toJson :=
  .parts c.stepDelay.spelled_toJson (Json.record_zip rfl true)

/-- a delay is read where seconds and nanoseconds fit, and is written again in the normal form of their total -/
theorem Delay.renewed_iff {j k : Json} :
    (Delay.ofJson? j).map Delay.toJson = some k ↔
      ∃ secs nanos, Delay.Parts secs nanos j ∧ Delay.Fits secs nanos ∧
        k = Delay.normalForm (secs * nanosPerSecond + nanos) := by
  constructor
  · intro h
    obtain ⟨d, hd, rfl⟩ := Option.map_eq_some_iff.1 h
    obtain ⟨hparts, hfits, htotal⟩ := Delay.ofJson?_eq_some_iff.1 hd
    exact ⟨_, _, hparts, hfits, by rw [Delay.toJson_eq, htotal]⟩
  · rintro ⟨secs, nanos, hparts, hfits, rfl⟩
    obtain ⟨d, hd, htotal⟩ := Delay.ofJson?_of_parts hparts hfits
    rw [hd, Option.map_some, Delay.toJson_eq, htotal]

/-- **JSON forms read back, and are read from exactly their language.** A delay is read from seconds and nanoseconds that fit,
and from nothing else; it has their total, so that reading and writing it again gives the normal form of the total, and doing
so twice gives the same. -/
theorem formats_exact :
    Format Phase.toJson Phase.ofJson? Phase.Spelled ∧ Format Intent.toJson Intent.ofJson? Intent.Spelled ∧
      Format Controls.toJson Controls.ofJson? Controls.Spelled ∧ Format Delay.toJson Delay.ofJson? Delay.Spelled ∧
      Format Config.toJson Config.ofJson? Config.Spelled ∧ Format Cell.toJson Cell.ofJson? Cell.Spelled ∧
      (∀ j k, (Delay.ofJson? j).map Delay.toJson = some k ↔ ∃ secs nanos, Delay.Parts secs nanos j ∧
        Delay.Fits secs nanos ∧ k = Delay.normalForm (secs * nanosPerSecond + nanos)) ∧
      ∀ j, ((Delay.ofJson? j).map Delay.toJson).bind (fun k => (Delay.ofJson? k).map Delay.toJson) =
        (Delay.ofJson? j).map Delay.toJson := by
  have hdelay : Format Delay.toJson Delay.ofJson? Delay.Spelled :=
    .of_spelled (fun _ _ => Delay.ofJson?_eq_some_iff) Delay.spelled_toJson
  refine ⟨.of_spelled (fun _ _ => Phase.ofJson?_eq_some_iff) fun _ => .name,
    .of_spelled (fun _ _ => Intent.ofJson?_eq_some_iff) Intent.spelled_toJson,
    .of_spelled (fun _ _ => Controls.ofJson?_eq_some_iff) Controls.spelled_toJson, hdelay,
    .of_spelled (fun _ _ => Config.ofJson?_eq_some_iff) Config.spelled_toJson,
    .of_spelled (fun _ _ => Cell.ofJson?_eq_some_iff) fun _ => rfl, fun _ _ => Delay.renewed_iff, ?_⟩
  intro j
  cases Delay.ofJson? j with
  | none => rfl
  | some d => simp [hdelay.roundTrip d]

/-- a full second is carried out of the nanoseconds, and the order of the keys does not matter -/
example : (Delay.ofJson? (.object [("nanos", .int 1500000000), ("secs", .int 2)])).map Delay.toJson =
    some (Delay.normalForm 3500000000) := rfl

end StepControl
