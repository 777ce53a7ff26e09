/-
Intents that come to nothing, inserted into a run.

Intents are inserted into the run of a client (`Inserts`) among those that it sends at once, between two errands, or where
it lets time pass; each of them is declined where it is served. Then the rest of the run is unchanged (`Unchanged`): the
same steps of the same interpreters at the same instants, the same announcements, published phases, results and waits; the
inserted intents show in their own results, and in the loader calls, checks and announcements of those among them that are
refused starts.

Where they may stand. To be served, an inserted intent lets the task run, and then the task takes the ticks that are due at
that instant. Where no tick is due it can stand anywhere; where one is due time has to pass next, or all that is sent at
once has to find room.

From errands to runs. Two clients are coupled (`Client.Coupled`) where the one has come to what the other has come to but
for what was inserted; it may be early, in that it has taken the ticks of the present instant already.
- `Client.Coupled.same`: what both do comes to the same.
- `Client.Coupled.among`, `Client.Coupled.between`, `Client.Coupled.before`: an insertion leaves them coupled, one lemma for
  each way.
- `Client.Coupled.performAll`: so runs that are coupled stay so to their ends.

Results:
- `Client.performAll_unchanged`: inserted in one of these ways, intents that come to nothing do not disturb the run of a
  client.
- `Client.performAll_unchanged_mixed`: intents inserted in each of the three ways, the last a start that is refused.
- `Client.performAll_broughtForward`: elsewhere they can. A delay that is refused brings a due tick forward, which the stop
  behind it would have forestalled.

Premises: what the loader builds depends on the text alone (`Textual`). The interpreter may break down.
-/
import StepControl.Proofs.Clients
import StepControl.Proofs.Declining
import StepControl.Script

namespace StepControl

open StepControl.Action

variable {I L P : Type} [Interpreter I] [Loader L I] [Presenter P]

/-! ## Insertions -/

namespace Controller

/-- the extra requests are declined where all are served one after the other -/
def DeclinesExtras (now : Instant) (requests : List Request) (c : Controller I L P) : Prop :=
  ∀ p ∈ (c.moments now (requests.map Request.intent)).zip requests, p.2.extra = true → p.1.Declines p.2.intent

/-- no tick is due at any moment while the requests are served -/
def StaysCalm (now : Instant) (requests : List Request) (c : Controller I L P) : Prop :=
  ∀ d ∈ c.moments now (requests.map Request.intent), d.Calm now

instance (now : Instant) (requests : List Request) (c : Controller I L P) : Decidable (c.DeclinesExtras now requests) :=
  inferInstanceAs (Decidable (∀ p ∈ _, _))

instance (now : Instant) (requests : List Request) (c : Controller I L P) : Decidable (c.StaysCalm now requests) :=
  inferInstanceAs (Decidable (∀ d ∈ _, _))

end Controller

def own (requests : List Request) : List Request := requests.filter fun q => !q.extra

/-- the first run of the client is the second with requests inserted that come to nothing. Where the first run may be early,
in that ticks due at the present instant were taken in it only, the phase is told that is published in the second -/
inductive Inserts : Option Phase → Client I L P → List Errand → List Errand → Prop where
  | done (a : Client I L P) : Inserts none a [] []
  | same {a : Client I L P} {errand : Errand} {full base : List Errand} (plain : own errand.requests = errand.requests)
      (rest : Inserts none (a.perform errand) full base) : Inserts none a (errand :: full) (errand :: base)
  /-- time passes -/
  | sleep {early : Option Phase} {a : Client I L P} {length : Nat} {full base : List Errand}
      (rest : Inserts none (a.perform (.sleep length)) full base) :
      Inserts early a (.sleep length :: full) (.sleep length :: base)
  /-- a stretch of time has parts, so that something can be inserted between them -/
  | split {a : Client I L P} {length more : Nat} {full base : List Errand} (later : 0 < more)
      (rest : Inserts none a full (.sleep length :: .sleep more :: base)) :
      Inserts none a full (.sleep (length + more) :: base)
  /-- time passes until a phase is reached that is not published yet -/
  | waitFor {early : Option Phase} {a : Client I L P} {target : Phase} {length : Nat} {full base : List Errand}
      (ahead : early ≠ some target) (rest : Inserts none (a.perform (.waitFor target length)) full base) :
      Inserts early a (.waitFor target length :: full) (.waitFor target length :: base)
  /-- among requests that are sent at once: they all find room, or no tick is due meanwhile -/
  | among {a : Client I L P} {requests : List Request} {full base : List Errand}
      (declined : a.session.status = .alive → a.session.controller.DeclinesExtras a.clock requests)
      (smooth : requests.length ≤ a.session.capacity ∨
        (a.session.status = .alive → a.session.controller.StaysCalm a.clock requests))
      (rest : Inserts none (a.perform (.send requests)) full base) :
      Inserts none a (.send requests :: full) (.send (own requests) :: base)
  /-- between any two errands, where no tick is due -/
  | between {early : Option Phase} {a : Client I L P} {requests : List Request} {full base : List Errand}
      (extra : own requests = [])
      (declined : a.session.status = .alive → a.session.controller.DeclinesExtras a.clock requests)
      (calm : a.session.status = .alive → a.session.controller.StaysCalm a.clock requests)
      (rest : Inserts early (a.perform (.send requests)) full base) : Inserts early a (.send requests :: full) base
  /-- at any instant, before time passes -/
  | before {early : Option Phase} {a : Client I L P} {requests : List Request} {full base : List Errand}
      (extra : own requests = [])
      (declined : a.session.status = .alive → a.session.controller.DeclinesExtras a.clock requests)
      (room : requests.length ≤ a.session.capacity)
      (rest : Inserts (some (early.getD a.session.watch.phase)) (a.perform (.send requests)) full base) :
      Inserts early a (.send requests :: full) base

/-- the messages of the starts that were inserted and refused -/
def Client.extraRefusals (a : Client I L P) : List String :=
  a.results.filterMap fun e => if e.1.extra then (Reply.result e.2).refusal? else none

/-- the first of the runs came to what the second came to, but for what was inserted -/
structure Unchanged (build : String → I) (a b : Client I L P) : Prop where
  clock : a.clock = b.clock
  /-- the interpreter steps at their instants, and the announcements -/
  record : Without a.extraRefusals (trace a.session.record) (trace b.session.record)
  watch : a.session.watch = b.session.watch
  status : a.session.status = b.session.status
  controller : a.session.status ≠ .crashed → InStep build a.session.controller b.session.controller
  results : a.results.filter (fun e => !e.1.extra) = b.results
  waits : a.waits = b.waits
  glances : a.glances = b.glances

/-! ## Tickets -/

/-- the ticket that a request of the first run has in the second, where `all` is what is sent in the first; none for an
extra request -/
def translation (all : List Request) (ticket : Nat) : Option Nat :=
  match all[ticket]? with
  | some q => if q.extra then none else some (own (all.take ticket)).length
  | none => none

section

omit [Interpreter I] [Loader L I] [Presenter P]

variable {all asked requests later : List Request} {q : Request} {replies more : List (Nat × Except Error Unit)}
  {n ticket : Nat}

@[simp] theorem own_append (asked more : List Request) : own (asked ++ more) = own asked ++ own more :=
  List.filter_append ..

theorem translation_place (h : all = asked ++ q :: later) :
    translation all asked.length = if q.extra then none else some (own asked).length := by
  simp [translation, h]

/-- tickets keep their order -/
theorem translation_lt {t u k l : Nat} (htu : t < u) (ht : translation all t = some k) (hu : translation all u = some l) :
    k < l := by
  unfold translation at ht hu
  split at ht
  case h_2 => cases ht
  case h_1 q hq =>
    split at hu
    case h_2 => cases hu
    case h_1 q' _ =>
      cases hextra : q.extra with
      | true => simp [hextra] at ht
      | false =>
        cases hextra' : q'.extra with
        | true => simp [hextra'] at hu
        | false =>
          simp only [hextra, hextra', Bool.false_eq_true, if_false, Option.some.injEq] at ht hu
          subst ht hu
          -- the second is counted behind the first
          have hfirst : all.take (t + 1) = all.take t ++ [q] := by rw [List.take_add_one, hq]; rfl
          have hsub : (own (all.take (t + 1))).length ≤ (own (all.take u)).length :=
            ((List.take_sublist_take_left htu).filter _).length_le
          rw [hfirst, own_append, List.length_append] at hsub
          have hone : (own [q]).length = 1 := by simp [own, hextra]
          omega

theorem translation_inj {t u k : Nat} (ht : translation all t = some k) (hu : translation all u = some k) : t = u := by
  rcases Nat.lt_trichotomy t u with hlt | heq | hgt
  · exact absurd (translation_lt hlt ht hu) (Nat.lt_irrefl k)
  · exact heq
  · exact absurd (translation_lt hgt hu ht) (Nat.lt_irrefl k)

/-- the second run has the requests that are not extra, in the same order -/
theorem counterparts_numbered (h : all = asked ++ (requests ++ later)) :
    Session.counterparts (translation all) (numbered asked.length requests) = numbered (own asked).length (own requests) := by
  induction requests generalizing asked with
  | nil => rfl
  | cons q rest ih =>
    have hplace := translation_place h
    have hnext : all = (asked ++ [q]) ++ (rest ++ later) := by simp [h]
    have hrest := ih hnext
    rw [List.length_append, List.length_singleton, own_append] at hrest
    unfold Session.counterparts at hrest ⊢
    rw [numbered, List.filterMap_cons, hplace]
    cases hextra : q.extra with
    | true => simpa [own, hextra] using hrest
    | false => simpa [own, hextra, numbered] using hrest

/-- requests without extras have the same intents in both runs -/
theorem same_numbered (h : all = asked ++ (requests ++ later)) (hown : own requests = requests) :
    List.Forall₂ (Command.Same (translation all)) (numbered asked.length requests)
      (numbered (own asked).length requests) := by
  induction requests generalizing asked with
  | nil => exact .nil
  | cons q rest ih =>
    have hplain : ∀ q' ∈ q :: rest, (!q'.extra) = true := List.filter_eq_self.1 hown
    have hextra : q.extra = false := by simpa using hplain q List.mem_cons_self
    have hone : own [q] = [q] := by simp [own, hextra]
    have hplace := translation_place h
    have hnext : all = (asked ++ [q]) ++ (rest ++ later) := by simp [h]
    have hrest := ih hnext (List.filter_eq_self.2 fun q' hq => hplain q' (List.mem_cons_of_mem _ hq))
    rw [hextra] at hplace
    rw [own_append, hone, List.length_append, List.length_append, List.length_singleton] at hrest
    exact .cons ⟨hplace, rfl⟩ hrest

/-- a command without a translation is that of an extra request -/
theorem zip_numbered {α : Type} (h : all = asked ++ (requests ++ later)) {l : List α} {p : α × Command}
    (hp : p ∈ l.zip (numbered asked.length requests)) :
    ∃ q, (p.1, q) ∈ l.zip requests ∧ p.2.intent = q.intent ∧ (translation all p.2.ticket = none → q.extra = true) := by
  induction requests generalizing asked l with
  | nil => simp [numbered] at hp
  | cons q rest ih =>
    cases l with
    | nil => simp at hp
    | cons d l =>
      rw [numbered, List.zip_cons_cons] at hp
      rcases List.mem_cons.1 hp with rfl | hp
      · refine ⟨q, List.mem_cons_self, rfl, fun hnone => ?_⟩
        rw [translation_place h] at hnone
        simpa using hnone
      · have hnext : all = (asked ++ [q]) ++ (rest ++ later) := by simp [h]
        have hrest : p ∈ l.zip (numbered (asked ++ [q]).length rest) := by simpa using hp
        obtain ⟨q', hmem, hintent, hextra⟩ := ih hnext hrest
        exact ⟨q', List.mem_cons_of_mem _ hmem, hintent, hextra⟩

/-! ## Results -/

/-- a ticket and its translation have the same reply -/
theorem lookup_translated {t k : Nat} (ht : translation all t = some k) :
    (Session.translated (translation all) replies).lookup k = replies.lookup t := by
  induction replies with
  | nil => rfl
  | cons e rest ih =>
    obtain ⟨u, result⟩ := e
    unfold Session.translated at ih ⊢
    rw [List.filterMap_cons]
    cases hu : translation all u with
    | none =>
      have hne : (t == u) = false := by
        refine beq_eq_false_iff_ne.2 ?_
        rintro rfl
        rw [hu] at ht
        cases ht
      simpa [List.lookup_cons, hne] using ih
    | some l =>
      rw [Option.map_some, List.lookup_cons, List.lookup_cons, ih]
      by_cases htu : t = u
      · obtain rfl : l = k := by simpa [htu, hu] using ht
        simp [htu]
      · have hkl : k ≠ l := by
          rintro rfl
          exact htu (translation_inj ht hu)
        simp [beq_false_of_ne htu, beq_false_of_ne hkl]

/-- the results of the requests that are not extra are those of the second run -/
theorem filter_answersTo (h : all = asked ++ (requests ++ later)) (replies : List (Nat × Except Error Unit)) :
    (answersTo replies asked.length requests).filter (fun e => !e.1.extra) =
      answersTo (Session.translated (translation all) replies) (own asked).length (own requests) := by
  induction requests generalizing asked with
  | nil => rfl
  | cons q rest ih =>
    have hplace := translation_place h
    have hnext : all = (asked ++ [q]) ++ (rest ++ later) := by simp [h]
    have hrest := ih hnext
    rw [List.length_append, List.length_singleton, own_append] at hrest
    rw [answersTo, List.filter_cons]
    cases hextra : q.extra with
    | true =>
      have hone : own [q] = [] := by simp [own, hextra]
      have hskip : own (q :: rest) = own rest := by simp [own, hextra]
      rw [hone, List.append_nil] at hrest
      simpa [hskip, hextra] using hrest
    | false =>
      have hone : own [q] = [q] := by simp [own, hextra]
      have hkeep : own (q :: rest) = q :: own rest := by simp [own, hextra]
      have hreply : (Session.translated (translation all) replies).lookup (own asked).length = replies.lookup asked.length := by
        refine lookup_translated ?_
        simpa [hextra] using hplace
      rw [hone, List.length_append, List.length_singleton] at hrest
      rw [hkeep, answersTo, hreply, ← hrest]
      simp

theorem answersTo_skip {u : Nat} (hu : u < ticket) (result : Except Error Unit) (replies : List (Nat × Except Error Unit))
    (requests : List Request) : answersTo ((u, result) :: replies) ticket requests = answersTo replies ticket requests := by
  induction requests generalizing ticket with
  | nil => rfl
  | cons q rest ih =>
    rw [answersTo, answersTo, ih (Nat.lt_succ_of_lt hu), List.lookup_cons, beq_false_of_ne (Nat.ne_of_gt hu)]

/-- the refused starts among the extra requests are told by the replies to tickets without a translation -/
theorem refusals_answersTo (h : all = asked ++ (requests ++ later))
    (horder : (replies.map Prod.fst).Pairwise (· < ·))
    (hplace : ∀ t ∈ replies.map Prod.fst, asked.length ≤ t ∧ t < asked.length + requests.length) :
    Session.refusals (translation all) replies =
      (answersTo replies asked.length requests).filterMap fun e =>
        if e.1.extra then (Reply.result e.2).refusal? else none := by
  induction requests generalizing asked replies with
  | nil =>
    cases replies with
    | nil => rfl
    | cons e more =>
      have hfirst := hplace e.1 (by simp)
      simp at hfirst
      omega
  | cons q rest ih =>
    have hnext : all = (asked ++ [q]) ++ (rest ++ later) := by simp [h]
    have hasked : (asked ++ [q]).length = asked.length + 1 := List.length_append
    have hticket : (if q.extra then none else some (own asked).length) = none ↔ q.extra = true := by
      cases q.extra <;> simp
    by_cases hfirst : asked.length ∈ replies.map Prod.fst
    · -- the first reply is that to the first request
      obtain ⟨result, more, rfl⟩ : ∃ result more, replies = (asked.length, result) :: more := by
        cases replies with
        | nil => simp at hfirst
        | cons e more =>
          have hle := (hplace e.1 (by simp)).1
          rcases List.mem_cons.1 hfirst with heq | hmem
          · exact ⟨e.2, more, by rw [heq]⟩
          · have hlt := List.rel_of_pairwise_cons horder hmem
            omega
      have hmore := ih hnext (List.Pairwise.of_cons horder) ?_
      · rw [hasked] at hmore
        rw [answersTo, answersTo_skip (Nat.lt_succ_self _), List.filterMap_cons, ← hmore]
        simp only [Session.refusals, List.filterMap_cons, translation_place h, hticket, List.lookup_cons, BEq.rfl,
          Option.getD_some]
      · intro t ht
        have hlt := List.rel_of_pairwise_cons horder ht
        have hbounds := hplace t (List.mem_cons_of_mem _ ht)
        rw [List.length_cons] at hbounds
        omega
    · have hnone : replies.lookup asked.length = none := by
        refine List.lookup_eq_none_iff.2 fun e he => ?_
        have hne : asked.length ≠ e.1 := fun heq => hfirst (heq ▸ List.mem_map_of_mem he)
        simpa using hne
      have hclosed : (Reply.result (.error .sessionClosed)).refusal? = none := rfl
      have hmore := ih hnext horder ?_
      · rw [hasked] at hmore
        rw [answersTo, List.filterMap_cons, hnone, ← hmore]
        simp [hclosed]
      · intro t ht
        have hbounds := hplace t ht
        have hne : t ≠ asked.length := fun heq => hfirst (heq ▸ ht)
        rw [List.length_cons] at hbounds
        omega

end

/-! ## Two runs -/

namespace Client

variable {build : String → I} {c : Controller I L P} {s₀ : Session I L P} {past : List Applied} {a b d : Client I L P}
  {all requests later : List Request} {errand : Errand} {full base : List Errand} {early : Option Phase}

/-- the client that a run goes on with, where an early one is ahead -/
def caughtUp (early : Option Phase) (b : Client I L P) : Client I L P :=
  match early with
  | none => b
  | some _ => { b with session := b.session.settle b.clock }

theorem caughtUp_clock (early : Option Phase) (b : Client I L P) : (b.caughtUp early).clock = b.clock := by
  cases early <;> rfl

theorem Sound.caughtUp (h : Sound b) (early : Option Phase) : Sound (b.caughtUp early) := by
  cases early with
  | none => exact h
  | some phase => exact h.led (Session.leads_settle ..) (h.ease.settle b.clock) rfl rfl

/-- the runs have come to the same, but for what was inserted into the first of what is sent in it, `all`. Where the first
is early, it has taken the ticks already that are due, and the phase is that which is published in the second -/
structure Coupled (build : String → I) (all : List Request) (early : Option Phase) (a b : Client I L P) : Prop where
  together : Together build (translation all) a (b.caughtUp early)
  asked : own a.asked = b.asked
  published : ∀ phase ∈ early, b.session.watch.phase = phase

/-- **What both do comes to the same.** -/
theorem Coupled.same (h : Coupled build all none a b) (ha : Sound a) (hb : Sound b)
    (hplace : all = a.asked ++ (errand.requests ++ later)) (hplain : own errand.requests = errand.requests) :
    Coupled build all none (a.perform errand) (b.perform errand) := by
  have htogether : Together build (translation all) a b := h.together
  have hpaired := htogether.paired
  refine ⟨htogether.perform ?_, ?_, nofun⟩
  · rw [postAll_eq, postAll_eq, ha.ease.tickets, hb.ease.tickets, ← hpaired.isAlive_eq, ← h.asked]
    refine { hpaired with waiting := ?_ }
    dsimp only
    split
    · exact List.rel_append hpaired.waiting (same_numbered hplace hplain)
    · exact hpaired.waiting
  · rw [asked_perform, asked_perform, own_append, hplain, h.asked]

/-! ## What is inserted -/

section

variable {s y : Session I L P} {sent : List Request} {now : Instant} {n : Nat}

/-- a session with requests in line, and one that has those of them that are not extra -/
theorem lined_postAll (hease : Session.AtEase sent.length s) (hplace : all = sent ++ (requests ++ later))
    (hpaired : Session.Paired build (translation all) s.emptied y.emptied) (hi : y.inbox = [])
    (hline : y.waiting = if s.isAlive then numbered (own sent).length (own requests) else [])
    (hdeclined : s.status = .alive → s.controller.DeclinesExtras now requests) :
    Session.Lined build (translation all) now (s.postAll requests) y := by
  obtain ⟨htidy, hinbox⟩ := tidy_postAll hease requests
  have hwaiting : (s.postAll requests).waiting = if s.isAlive then numbered sent.length requests else [] := by
    rw [postAll_eq, hease.waiting, hease.tickets]
    rfl
  have hcontroller : (s.postAll requests).controller = s.controller := by rw [postAll_eq]
  refine ⟨?_, ⟨hinbox, hi⟩, ?_, htidy.going, fun hover => (htidy.gone hover).2, ?_⟩
  · rw [postAll_eq]
    exact { hpaired with }
  · rw [hline, hwaiting]
    split
    · exact (counterparts_numbered hplace).symm
    · rfl
  · rw [hwaiting, hcontroller]
    split
    case isFalse => exact fun p hp => by simp at hp
    case isTrue halive =>
      intro p hp hticket
      rw [map_numbered] at hp
      obtain ⟨q, hmem, hintent, hextra⟩ := zip_numbered hplace hp
      rw [hintent]
      exact hdeclined (by simpa [Session.isAlive] using halive) _ hmem (hextra hticket)

omit [Interpreter I] [Loader L I] [Presenter P] in
/-- what was asked of a session at ease finds room if it is no more than the inbox holds -/
theorem room_postAll (hease : Session.AtEase n s) (hroom : requests.length ≤ s.capacity) :
    (s.postAll requests).waiting.length ≤ (s.postAll requests).capacity := by
  rw [postAll_eq, hease.waiting]
  dsimp only
  split
  · simpa using hroom
  · exact Nat.zero_le _

theorem calm_postAll (hease : Session.AtEase n s)
    (hcalm : s.status = .alive → s.controller.StaysCalm now requests) :
    (s.postAll requests).status = .alive →
      Session.AllCalm now (s.postAll requests).waiting (s.postAll requests).controller := by
  rw [postAll_eq, hease.waiting]
  intro hs
  have halive : s.isAlive = true := by simpa [Session.isAlive] using hs
  rw [halive, if_pos rfl, List.nil_append, Session.AllCalm, map_numbered]
  exact hcalm hs

end

/-- requests among which some are extra -/
theorem Coupled.among (h : Coupled build all none a b) (ha : Sound a) (hb : Sound b)
    (hplace : all = a.asked ++ (requests ++ later))
    (hdeclined : a.session.status = .alive → a.session.controller.DeclinesExtras a.clock requests)
    (hsmooth : requests.length ≤ a.session.capacity ∨
      (a.session.status = .alive → a.session.controller.StaysCalm a.clock requests)) :
    Coupled build all none (a.perform (.send requests)) (b.perform (.send (own requests))) := by
  have htogether : Together build (translation all) a b := h.together
  have hpaired := htogether.paired
  have hemptied : Session.Paired build (translation all) a.session.emptied (b.session.postAll (own requests)).emptied := by
    rw [postAll_eq]
    exact { hpaired with inbox := .nil, waiting := .nil }
  have hline : (b.session.postAll (own requests)).waiting =
      if a.session.isAlive then numbered (own a.asked).length (own requests) else [] := by
    rw [postAll_eq, hb.ease.waiting, hb.ease.tickets, h.asked, hpaired.isAlive_eq]
    rfl
  have hlined := lined_postAll ha.ease hplace hemptied (tidy_postAll hb.ease (own requests)).2 hline hdeclined
  have hsettled : Session.Paired build (translation all) ((a.session.postAll requests).settle a.clock)
      ((b.session.postAll (own requests)).settle a.clock) := by
    rcases hsmooth with hroom | hcalm
    · exact hlined.settle_room (room_postAll ha.ease hroom)
    · exact hlined.settle_calm (calm_postAll ha.ease hcalm)
  rw [htogether.clock] at hsettled
  refine ⟨⟨htogether.clock, ?_, htogether.waits, htogether.glances⟩, ?_, nofun⟩
  · rw [Client.perform, htogether.clock]
    exact hsettled
  · rw [asked_perform, asked_perform, Errand.requests, own_append, h.asked]
    rfl

/-- extra requests in line, and the session that the second run goes on with -/
theorem Coupled.lined (h : Coupled build all early a b) (ha : Sound a) (hb : Sound b)
    (hplace : all = a.asked ++ (requests ++ later)) (hextra : own requests = [])
    (hdeclined : a.session.status = .alive → a.session.controller.DeclinesExtras a.clock requests) :
    Session.Lined build (translation all) a.clock (a.session.postAll requests) (b.caughtUp early).session := by
  have hease := (hb.caughtUp early).ease
  have hline : (b.caughtUp early).session.waiting =
      if a.session.isAlive then numbered (own a.asked).length (own requests) else [] := by
    rw [hease.waiting, hextra]
    exact (ite_self _).symm
  have hemptied : Session.Paired build (translation all) a.session.emptied (b.caughtUp early).session.emptied :=
    { h.together.paired with inbox := .nil, waiting := .nil }
  exact lined_postAll ha.ease hplace hemptied hease.inbox hline hdeclined

/-- extra requests are not among those of the second run -/
theorem Coupled.asked_extra (h : Coupled build all early a b) (hextra : own requests = []) :
    own (a.perform (.send requests)).asked = b.asked := by
  rw [asked_perform, Errand.requests, own_append, hextra, List.append_nil, h.asked]

/-- extra requests where no tick is due -/
theorem Coupled.between (h : Coupled build all early a b) (ha : Sound a) (hb : Sound b)
    (hplace : all = a.asked ++ (requests ++ later)) (hextra : own requests = [])
    (hdeclined : a.session.status = .alive → a.session.controller.DeclinesExtras a.clock requests)
    (hcalm : a.session.status = .alive → a.session.controller.StaysCalm a.clock requests) :
    Coupled build all early (a.perform (.send requests)) b := by
  have hlined := h.lined ha hb hplace hextra hdeclined
  have hsettled := hlined.settle_alone (calm_postAll ha.ease hcalm) (hb.caughtUp early).ease.waiting
  exact ⟨{ h.together with paired := hsettled }, h.asked_extra hextra, h.published⟩

/-- extra requests that find room -/
theorem Coupled.before (h : Coupled build all early a b) (ha : Sound a) (hb : Sound b)
    (hplace : all = a.asked ++ (requests ++ later)) (hextra : own requests = [])
    (hdeclined : a.session.status = .alive → a.session.controller.DeclinesExtras a.clock requests)
    (hroom : requests.length ≤ a.session.capacity) :
    Coupled build all (some (early.getD a.session.watch.phase)) (a.perform (.send requests)) b := by
  have hclock : a.clock = b.clock := h.together.clock.trans (caughtUp_clock early b)
  have hsettled := (h.lined ha hb hplace hextra hdeclined).settle_room (room_postAll ha.ease hroom)
  have hagain : (b.caughtUp early).session.settle b.clock = b.session.settle b.clock := by
    cases early with
    | none => rfl
    | some phase => exact hb.ease.settle_settle hb.rooted b.clock
  have hwaits : a.waits = b.waits := by cases early <;> exact h.together.waits
  have hglances : a.glances = b.glances := by cases early <;> exact h.together.glances
  rw [hclock, hagain, ← hclock] at hsettled
  refine ⟨⟨hclock, ?_, hwaits, hglances⟩, h.asked_extra hextra, ?_⟩
  · rw [caughtUp, ← hclock]
    exact hsettled
  · intro phase hphase
    obtain rfl := Option.some.inj hphase
    cases early with
    | none =>
      have htogether : Together build (translation all) a b := h.together
      rw [Option.getD_none, htogether.paired.watch]
    | some phase => exact h.published phase rfl

/-- time passes, or a phase is awaited: a run that is early is caught up with where both do the same -/
theorem Coupled.passes (h : Coupled build all early a b) (hnone : errand.requests = [])
    (hagain : (b.caughtUp early).perform errand = b.perform errand) :
    Coupled build all none (a.perform errand) (b.perform errand) := by
  have hsent : Session.Paired build (translation all) (a.session.postAll errand.requests)
      ((b.caughtUp early).session.postAll errand.requests) := by
    rw [hnone]
    exact h.together.paired
  refine ⟨?_, ?_, nofun⟩
  · rw [caughtUp, ← hagain]
    exact h.together.perform hsent
  · rw [asked_perform, asked_perform, hnone, List.append_nil, List.append_nil, h.asked]

/-- time passes -/
theorem Coupled.sleep (h : Coupled build all early a b) (hb : Sound b) (length : Nat) :
    Coupled build all none (a.perform (.sleep length)) (b.perform (.sleep length)) := by
  refine h.passes rfl ?_
  cases early with
  | none => rfl
  | some phase =>
    have hslept := hb.ease.sleep_settle hb.rooted b.clock (b.clock + length)
    rw [Client.perform, Client.perform, caughtUp, hslept]

/-- time passes until a phase is reached that is not published yet -/
theorem Coupled.waitFor (h : Coupled build all early a b) (hb : Sound b) {target : Phase} (hahead : early ≠ some target)
    (length : Nat) : Coupled build all none (a.perform (.waitFor target length)) (b.perform (.waitFor target length)) := by
  refine h.passes rfl ?_
  cases early with
  | none => rfl
  | some phase =>
    have hpublished : b.session.watch.phase ≠ target := by
      rw [h.published phase rfl]
      exact fun heq => hahead (congrArg some heq)
    have hwaited := hb.ease.waitFor_settle hb.rooted hpublished b.clock (b.clock + length)
    rw [Client.perform, Client.perform, caughtUp, hwaited]

/-- a client that is together with the second run will do as well -/
theorem Coupled.through (h : Coupled build all none a d) (h' : Together build some b d) (hasked : b.asked = d.asked) :
    Coupled build all none a b := by
  have htogether : Together build (translation all) a d := h.together
  refine ⟨⟨htogether.clock.trans h'.clock.symm, htogether.paired.through h'.paired, htogether.waits.trans h'.waits.symm,
    htogether.glances.trans h'.glances.symm⟩, h.asked.trans hasked.symm, nofun⟩

/-! ## Whole runs -/

/-- **Runs that are coupled stay so to their ends**, one with requests inserted that come to nothing. -/
theorem Coupled.performAll (h : Coupled build all early a b) (hinserts : Inserts early a full base) (ha : Sound a)
    (hb : Sound b) (hall : all = a.asked ++ full.flatMap Errand.requests) :
    Coupled build all none (a.performAll full) (b.performAll base) := by
  -- what the first run sends in its next errand, and what it sends after that
  have hnext : ∀ {a : Client I L P} {errand : Errand} {rest : List Errand},
      all = a.asked ++ (errand :: rest).flatMap Errand.requests →
      all = a.asked ++ (errand.requests ++ rest.flatMap Errand.requests) ∧
        all = (a.perform errand).asked ++ rest.flatMap Errand.requests := by
    intro a errand rest hall
    rw [asked_perform, List.append_assoc]
    exact ⟨hall, hall⟩
  induction hinserts generalizing b with
  | done a => exact h
  | same plain _ ih =>
    obtain ⟨hplace, hlater⟩ := hnext hall
    exact ih (h.same ha hb hplace plain) (ha.perform _) (hb.perform _) hlater
  | sleep _ ih => exact ih (h.sleep hb _) (ha.perform _) (hb.perform _) (hnext hall).2
  | @split a length more full base later _ ih =>
    have htogether : Together build (translation all) a b := h.together
    have hparts := (hb.together_parts htogether.paired.right length later).symm
    have hasked : (b.perform (.sleep (length + more))).asked = ((b.perform (.sleep length)).perform (.sleep more)).asked := rfl
    have hwhole := hparts.performAll (hb.perform _) ((hb.perform _).perform _) hasked base
    refine (ih h ha hb hall).through hwhole ?_
    rw [asked_performAll, asked_performAll]
    rfl
  | waitFor ahead _ ih => exact ih (h.waitFor hb ahead _) (ha.perform _) (hb.perform _) (hnext hall).2
  | among declined smooth _ ih =>
    obtain ⟨hplace, hlater⟩ := hnext hall
    exact ih (h.among ha hb hplace declined smooth) (ha.perform _) (hb.perform _) hlater
  | between extra declined calm _ ih =>
    obtain ⟨hplace, hlater⟩ := hnext hall
    exact ih (h.between ha hb hplace extra declined calm) (ha.perform _) hb hlater
  | before extra declined room _ ih =>
    obtain ⟨hplace, hlater⟩ := hnext hall
    exact ih (h.before ha hb hplace extra declined room) (ha.perform _) hb hlater

/-- what comes of a sound client's requests is what the session replied to them -/
theorem Sound.extraRefusals (h : Sound a) : a.extraRefusals = Session.refusals (translation a.asked) a.session.replies := by
  have hreplied : (a.session.replies.map Prod.fst).Sublist a.session.line := List.sublist_append_left ..
  have hplace : a.asked = [] ++ (a.asked ++ []) := by simp
  rw [Client.extraRefusals, h.results, refusals_answersTo hplace (h.ticketed.order.sublist hreplied)]
  · rfl
  · intro t ht
    have hgiven := h.ticketed.given t (hreplied.subset ht)
    rw [h.ease.tickets] at hgiven
    simpa using hgiven

/-- runs that are coupled at their ends came to the same -/
theorem Coupled.unchanged (h : Coupled build a.asked none a b) (ha : Sound a) (hb : Sound b) : Unchanged build a b := by
  have htogether : Together build (translation a.asked) a b := h.together
  have hpaired := htogether.paired
  refine ⟨htogether.clock, ?_, hpaired.watch, hpaired.status, hpaired.controller, ?_, htogether.waits, htogether.glances⟩
  · rw [ha.extraRefusals]
    exact hpaired.record
  · have hplace : a.asked = [] ++ (a.asked ++ []) := by simp
    calc
      a.results.filter (fun e => !e.1.extra)
        = (answersTo a.session.replies 0 a.asked).filter (fun e => !e.1.extra) := by rw [← ha.results]
      _ = answersTo (Session.translated (translation a.asked) a.session.replies) 0 (own a.asked) :=
        filter_answersTo hplace a.session.replies
      _ = b.results := by rw [hpaired.replies, h.asked, ← hb.results]

/-- **Intents that come to nothing do not disturb the run** of a client with a new session, where they are inserted in one of
the ways that `Inserts` tells, and what the loader builds depends on the text alone. -/
theorem performAll_unchanged (hc : Controller.Reached past c) (hloader : Textual build c.loader)
    (hs : Session.spawn? c = some s₀) {clock : Instant} (h : Inserts none { clock, session := s₀ } full base) :
    Unchanged build (({ clock, session := s₀ } : Client I L P).performAll full)
      (({ clock, session := s₀ } : Client I L P).performAll base) := by
  have hstart := sound_spawn hc hs clock
  have hasked := asked_performAll ({ clock, session := s₀ } : Client I L P) full
  have hpaired : Session.Paired build (translation (full.flatMap Errand.requests)) s₀ s₀ := by
    obtain rfl := Session.spawn?_eq hs
    have hself : Session.Paired build some _ _ := .refl (fun _ => hloader) hstart.ease.room fun _ => rfl
    exact { hself with inbox := .nil, waiting := .nil, replies := rfl, record := .nil }
  have hcoupled : Coupled build (full.flatMap Errand.requests) none { clock, session := s₀ } { clock, session := s₀ } :=
    ⟨⟨rfl, hpaired, rfl, rfl⟩, rfl, nofun⟩
  have hends := hcoupled.performAll h hstart hstart rfl
  have hall : full.flatMap Errand.requests = (({ clock, session := s₀ } : Client I L P).performAll full).asked :=
    hasked.symm
  rw [hall] at hends
  exact hends.unchanged (hstart.performAll full) (hstart.performAll base)

end Client

def Repertoire.built (repertoire : Repertoire) (text : String) : Player := { script := repertoire.find text }

theorem Repertoire.textual (repertoire : Repertoire) : Textual repertoire.built repertoire := by
  intro texts
  induction texts with
  | nil => rfl
  | cons text rest ih => exact congrArg (repertoire.built text :: ·) ih

/-- a program that goes on and one that does not parse -/
def mixed : Repertoire := ⟨[{ text := "+" }, { text := "?", rejection := some "no such command" }]⟩

/-- intents that come to nothing among the first requests, at the instant at which a tick is due, where none is due, and in
the end a start that is refused -/
theorem Client.performAll_unchanged_mixed :
    ∃ (s : Session Player Repertoire Unit) (full base : List Errand),
      Controller.Reached [] (Controller.ofConfig {} mixed () : Controller Player Repertoire Unit) ∧
        Textual mixed.built mixed ∧ Session.spawn? (Controller.ofConfig {} mixed ()) = some s ∧
        Inserts none { session := s } full base ∧
        Unchanged mixed.built (({ session := s } : Client Player Repertoire Unit).performAll full)
          (({ session := s } : Client Player Repertoire Unit).performAll base) ∧
        full = [.send [⟨.load "+", false⟩, ⟨.step, true⟩, ⟨.run, false⟩, ⟨.setDelay 0, true⟩], .sleep 90000000,
          .send [⟨.resume, true⟩], .sleep 5000000, .send [⟨.supplyInput "a", true⟩],
          .send [⟨.stop, false⟩, ⟨.load "?", false⟩], .send [⟨.run, true⟩], .look] ∧
        base = [.send [⟨.load "+", false⟩, ⟨.run, false⟩], .sleep 95000000,
          .send [⟨.stop, false⟩, ⟨.load "?", false⟩], .look] ∧
        (({ session := s } : Client Player Repertoire Unit).performAll full).extraRefusals = ["no such command"] := by
  let s : Session Player Repertoire Unit :=
    { controller := Controller.ofConfig {} mixed (), capacity := 32, watch := { phase := .idle } }
  have hs : Session.spawn? (Controller.ofConfig {} mixed ()) = some s := rfl
  have hinserts : Inserts none { session := s }
      [.send [⟨.load "+", false⟩, ⟨.step, true⟩, ⟨.run, false⟩, ⟨.setDelay 0, true⟩], .sleep 90000000,
        .send [⟨.resume, true⟩], .sleep 5000000, .send [⟨.supplyInput "a", true⟩],
        .send [⟨.stop, false⟩, ⟨.load "?", false⟩], .send [⟨.run, true⟩], .look]
      [.send [⟨.load "+", false⟩, ⟨.run, false⟩], .sleep (90000000 + 5000000),
        .send [⟨.stop, false⟩, ⟨.load "?", false⟩], .look] := by
    refine .among (by decide +kernel) (by decide +kernel) (.split (by decide) (.same rfl ?_))
    -- a tick is due, and time passes next
    refine .before rfl (by decide +kernel) (by decide +kernel) (.sleep ?_)
    refine .between rfl (by decide +kernel) (by decide +kernel) (.same rfl ?_)
    exact .between rfl (by decide +kernel) (by decide +kernel) (.same rfl (.done _))
  have hreached : Controller.Reached [] (Controller.ofConfig {} mixed () : Controller Player Repertoire Unit) := .new _ _ _
  exact ⟨s, _, _, hreached, mixed.textual, hs, hinserts,
    performAll_unchanged hreached mixed.textual hs hinserts, rfl, rfl, by decide +kernel⟩

def Client.calls (a : Client I L P) : List (Nat × Call) := Controller.calls (a.session.record.map Timed.what)

/-- **A tick that is due is brought forward** by a delay that is refused: the stop behind it would have forestalled the tick.
The start is a client that ran a program up to the instant at which the first tick is due -/
theorem Client.performAll_broughtForward :
    ∃ a : Client Player Repertoire Unit,
      a = ({ session := { controller := Controller.ofConfig {} mixed (), capacity := 32, watch := { phase := .idle } } } :
          Client Player Repertoire Unit).performAll [.send [⟨.run, false⟩], .sleep 90000000] ∧
        a.session.status = .alive ∧ a.session.controller.DeclinesExtras a.clock [⟨.setDelay 0, true⟩] ∧
        (a.performAll [.send [⟨.setDelay 0, true⟩], .send [⟨.stop, false⟩]]).calls =
          [(1, .check (some .accepted)), (1, .reset true), (1, .next false [] (some .proceed)), (1, .reset true)] ∧
        (a.performAll [.send [⟨.stop, false⟩]]).calls =
          [(1, .check (some .accepted)), (1, .reset true), (1, .reset true)] ∧
        ∀ build, ¬ Unchanged build (a.performAll [.send [⟨.setDelay 0, true⟩], .send [⟨.stop, false⟩]])
          (a.performAll [.send [⟨.stop, false⟩]]) := by
  refine ⟨_, rfl, by decide +kernel, by decide +kernel, by decide +kernel, by decide +kernel, fun build h => ?_⟩
  have hrecord := h.record
  rw [show Client.extraRefusals _ = [] by decide +kernel] at hrecord
  exact absurd (congrArg List.length hrecord.eq) (by decide +kernel)

end StepControl
