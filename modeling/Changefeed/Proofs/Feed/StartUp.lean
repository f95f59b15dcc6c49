import Mathlib.Logic.Function.Iterate
import Changefeed.Settings
import Changefeed.Proofs.Checkpoint.Passing
import Changefeed.Proofs.Feed.Requests

/-!
# Where a stream begins

Three things settle where the stream of a feed begins: the position to resume from
that the settings give, if they give one; whether they ask for a snapshot; and what
the store has for the stream. Which of them counts is decided in several places, some
of it when the feed is opened and some of it when it is started, and each place tells
apart the null position and none at all in its own way. `StartUp.of` is what all of
this comes to. Nothing of it touches the store, and once a feed is started it may be
started as often as one likes (`Starts`).
-/

namespace Changefeed

/-- How starting up comes out. -/
inductive StartUp where
  /-- The stream goes on from a position. -/
  | streaming (p : Position)
  /-- The stream waits for its snapshot. -/
  | waiting
  /-- The feed is there, but starting it fails. -/
  | refused (f : Fault)
  /-- There is no feed, because opening it fails. -/
  | unopened (f : Fault)

/-- How starting up comes out, by the position that is given to resume from, by whether a snapshot
is asked for, and by what is stored. -/
def StartUp.of : Option Position → Bool → Except Fault Position → StartUp
  | some (.known n), _, _ => .streaming (.known n)
  | some .null, true, _ => .waiting
  | some .null, false, _ => .streaming .null
  | none, true, .ok (.known n) => .streaming (.known n)
  | none, true, .ok .null => .waiting
  | none, true, .error f => .refused f
  | none, false, .ok p => .streaming p
  | none, false, .error f => .unopened f

/-- Where there is no feed there was no answer. -/
theorem StartUp.answer_of_unopened {resume : Option Position} {awaitSnapshot : Bool}
    {answer : Except Fault Position} {f : Fault}
    (h : StartUp.of resume awaitSnapshot answer = .unopened f) : answer = .error f := by
  unfold StartUp.of at h
  split at h <;> cases h
  rfl

namespace Feed

variable {S σ : Type} [CheckpointStore σ]

/-! ## Starting -/

/-- A feed whose stream has come to a position without taking a change: nothing is declared,
counted or recorded, and the store is the one that it was opened with. -/
def untouched (o : Options) (policy : OrderPolicy) (store : σ) (sink : Sink LogEntry)
    (phase : Phase) (p : Position) : Feed σ where
  catalog := .empty
  meters := { Meters.start o.scope with position := p }
  policy
  resume := o.resume
  session := ⟨o.serverName, phase, p, store, some sink, []⟩

/-- What starting a feed comes to. Each of any number of starts gives the answer, the first one
leaves the feed, and the others change nothing. -/
structure Starts (l : Logged (Feed σ)) (answer : Except Fault Phase) (f : Feed σ) : Prop where
  answers : ∀ n, start.result (start.after^[n] l) = answer
  leaves : (start.after l).state = f
  rests : ∀ n, start.after^[n + 1] l = start.after l

/-- A second start that does what the first one did is one of many. -/
theorem Starts.of_again {l t : Logged (Feed σ)} {answer : Except Fault Phase}
    (hresult : start.result l = answer) (hafter : start.after l = t)
    (hagain : start.result t = answer) (hrest : start.after t = t) : Starts l answer t.state := by
  have hrests : ∀ n, start.after^[n + 1] l = t := by
    intro n
    rw [Function.iterate_succ_apply, hafter]
    exact Function.iterate_fixed hrest n
  refine ⟨fun n => ?_, congrArg Logged.state hafter, fun n => (hrests n).trans hafter.symm⟩
  cases n with
  | zero => exact hresult
  | succ n =>
    rw [hrests n]
    exact hagain

/-- A start that changes nothing changes nothing however often it is made. -/
theorem Starts.of_still {l : Logged (Feed σ)} {answer : Except Fault Phase}
    (hresult : start.result l = answer) (hafter : start.after l = l) : Starts l answer l.state :=
  .of_again hresult hafter hresult hafter

theorem resumption_of_some {f : Feed σ} {p : Position} (h : f.resume = some p) :
    f.resumption = .ok p := by
  unfold resumption
  rw [h]

theorem resumption_of_none {f : Feed σ} (h : f.resume = none) :
    f.resumption = CheckpointStore.load f.session.store f.session.key := by
  unfold resumption
  rw [h]
  rfl

/-- The feed with its stream going on from a position. -/
def goingOn (f : Feed σ) (p : Position) : Feed σ :=
  ({ f with session := { f.session with reached := p, phase := .streaming } } : Feed σ).showing p

section Start

variable {l : Logged (Feed σ)} (hwaits : l.state.session.phase = .snapshotting)
include hwaits

/-- With no position to resume from the stream goes on waiting. -/
theorem starts_of_null (h : l.state.resumption = .ok .null) :
    Starts l (.ok .snapshotting) l.state := by
  have hrun : start l = .ok .snapshotting l := by
    unfold start
    rw [Act.state_bind, if_pos hwaits, Act.bind_of_ok (Act.ofExcept_eq_ok.2 ⟨h, rfl⟩), ← hwaits]
    rfl
  exact .of_still (Act.result_of_ok hrun) (Act.after_of_ok hrun)

/-- Where the position to resume from cannot be told the stream goes on waiting. -/
theorem starts_of_fault {f : Fault} (h : l.state.resumption = .error f) :
    Starts l (.error f) l.state := by
  have hrun : start l = .error f l := by
    unfold start
    rw [Act.state_bind, if_pos hwaits, Act.bind_of_error (Act.ofExcept_eq_error.2 ⟨h, rfl⟩)]
  exact .of_still (Act.result_of_error hrun) (Act.after_of_error hrun)

/-- A stream that waits can be told where to go on from. -/
theorem beginStreaming_given (p : Position) :
    ∃ ns, beginStreaming (some p) l = .ok () ⟨l.state.goingOn p, ns⟩ := by
  have hrequire := Session.requireWaiting_of_waiting .beginStreaming
    (s := ⟨l.state.session, l.notices⟩) hwaits
  obtain ⟨ns, henter⟩ := Session.enterStreaming_run p .resume ⟨l.state.session, l.notices⟩
  have hsession : Session.beginStreaming (some p) ⟨l.state.session, l.notices⟩ = .ok () _ :=
    (Act.bind_of_ok hrequire).trans henter
  have hfeed := onSession_run (Session.beginStreaming (some p)) l
  rw [hsession] at hfeed
  exact ⟨ns, Act.bind_of_ok hfeed⟩

/-- With a position to resume from the stream goes on from there, and is then no longer waiting. -/
theorem starts_of_known {n : Sequence} (h : l.state.resumption = .ok (.known n)) :
    Starts l (.ok .streaming) (l.state.goingOn (.known n)) := by
  obtain ⟨ns, hbegin⟩ := beginStreaming_given hwaits (.known n)
  have hknown : (Position.known n).isKnown = true := rfl
  have hrun : start l = .ok .streaming ⟨l.state.goingOn (.known n), ns⟩ := by
    unfold start
    rw [Act.state_bind, if_pos hwaits, Act.bind_of_ok (Act.ofExcept_eq_ok.2 ⟨h, rfl⟩),
      if_pos hknown]
    exact Act.bind_of_ok hbegin
  exact .of_again (Act.result_of_ok hrun) (Act.after_of_ok hrun) rfl rfl

end Start

/-! ## Opening and starting -/

/-- What has become of opening a feed, and of starting it, where starting up comes out in some way;
`feed` is the feed in a phase and at a position. Opening does nothing to the state that it is done
on. -/
def ComesOut (opened : EStateM.Result Fault (Logged S) (Feed σ)) (l : Logged S)
    (feed : Phase → Position → Feed σ) : StartUp → Prop
  | .unopened f => opened = .error f l
  | .refused f => ∃ f₀ ns, opened = .ok f₀ ⟨l.state, ns⟩
      ∧ Starts ⟨f₀, ns⟩ (.error f) (feed .snapshotting .null)
  | .waiting => ∃ f₀ ns, opened = .ok f₀ ⟨l.state, ns⟩
      ∧ Starts ⟨f₀, ns⟩ (.ok .snapshotting) (feed .snapshotting .null)
  | .streaming p => ∃ f₀ ns, opened = .ok f₀ ⟨l.state, ns⟩
      ∧ Starts ⟨f₀, ns⟩ (.ok .streaming) (feed .streaming p)

section Untouched

variable {o : Options} {policy : OrderPolicy} {store : σ} {sink : Sink LogEntry}

/-- A feed that is opened to wait for a snapshot comes out as if it had asked for one. -/
theorem waiting_comesOut (l : Logged S) :
    ComesOut (.ok (untouched o policy store sink .snapshotting .null) l) l
      (untouched o policy store sink)
      (.of o.resume true (CheckpointStore.load store o.serverName)) := by
  have hwaits : (⟨untouched o policy store sink .snapshotting .null, l.notices⟩ :
      Logged (Feed σ)).state.session.phase = .snapshotting := rfl
  cases hresume : o.resume with
  | some p =>
    have hplace := resumption_of_some (f := untouched o policy store sink .snapshotting .null)
      hresume
    cases p with
    | null => exact ⟨_, l.notices, rfl, starts_of_null hwaits hplace⟩
    | known n => exact ⟨_, l.notices, rfl, starts_of_known hwaits hplace⟩
  | none =>
    have hplace := resumption_of_none (f := untouched o policy store sink .snapshotting .null)
      hresume
    cases hload : CheckpointStore.load store o.serverName with
    | error fault => exact ⟨_, l.notices, rfl, starts_of_fault hwaits (hplace.trans hload)⟩
    | ok p =>
      cases p with
      | null => exact ⟨_, l.notices, rfl, starts_of_null hwaits (hplace.trans hload)⟩
      | known n => exact ⟨_, l.notices, rfl, starts_of_known hwaits (hplace.trans hload)⟩

/-- A feed that is opened streaming goes on. -/
theorem streaming_comesOut (l : Logged S) (ns : List Notice) (p : Position) :
    ComesOut (.ok (untouched o policy store sink .streaming p) ⟨l.state, ns⟩) l
      (untouched o policy store sink) (.streaming p) :=
  ⟨_, ns, rfl, .of_still rfl rfl⟩

/-- A feed that can be opened is opened with its session. -/
theorem openOn_of_session (hpolicy : OrderPolicy.ofText? o.policy = some policy) {l t : Logged S}
    {phase : Phase} {p : Position} (h : openSession o store sink l =
      .ok ⟨o.serverName, phase, p, store, some sink, []⟩ t) :
    openOn o store sink l = .ok (untouched o policy store sink phase p) t := by
  unfold openOn
  rw [hpolicy]
  exact Act.bind_of_ok h

/-- **Opening a feed and starting it** comes out as the table has it, whichever store it is opened
on and whatever that answers. -/
theorem openOn_comesOut (hpolicy : OrderPolicy.ofText? o.policy = some policy) (store : σ)
    (sink : Sink LogEntry) (l : Logged S) :
    ComesOut (openOn o store sink l) l (untouched o policy store sink)
      (.of o.resume o.captureSnapshot (CheckpointStore.load store o.serverName)) := by
  cases hcapture : o.captureSnapshot with
  | true =>
    have hsession : openSession o store sink l =
        .ok ⟨o.serverName, .snapshotting, .null, store, some sink, []⟩ l := by
      unfold openSession
      rw [hcapture]
      rfl
    rw [openOn_of_session hpolicy hsession]
    exact waiting_comesOut l
  | false =>
    cases hresume : o.resume with
    | some p =>
      obtain ⟨ns, hsession⟩ : ∃ ns, openSession o store sink l =
          .ok ⟨o.serverName, .streaming, p, store, some sink, []⟩ ⟨l.state, ns⟩ := by
        unfold openSession
        rw [hcapture, hresume]
        exact ⟨_, rfl⟩
      rw [openOn_of_session hpolicy hsession]
      cases p <;> exact streaming_comesOut l ns _
    | none =>
      have hopen : openSession o store sink l =
          Session.openOn o.serverName store (some sink) false l := by
        unfold openSession
        rw [hcapture, hresume]
      cases hload : CheckpointStore.load store o.serverName with
      | error f =>
        have hsession : openSession o store sink l = .error f l :=
          hopen.trans (Act.bind_of_error (Act.ofExcept_eq_error.2 ⟨hload, rfl⟩))
        show openOn o store sink l = .error f l
        unfold openOn
        rw [hpolicy]
        exact Act.bind_of_error hsession
      | ok p =>
        obtain ⟨ns, hsession⟩ : ∃ ns, openSession o store sink l =
            .ok ⟨o.serverName, .streaming, p, store, some sink, []⟩ ⟨l.state, ns⟩ :=
          ⟨_, hopen.trans (Act.bind_of_ok (Act.ofExcept_eq_ok.2 ⟨hload, rfl⟩))⟩
        rw [openOn_of_session hpolicy hsession]
        exact streaming_comesOut l ns p

end Untouched

/-- Opening a feed whose policy is known fails only where its store has no answer. -/
theorem openOn_eq_error {o : Options} {policy : OrderPolicy}
    (hpolicy : OrderPolicy.ofText? o.policy = some policy) {store : σ} {sink : Sink LogEntry}
    {l t : Logged S} {f : Fault} (h : openOn o store sink l = .error f t) :
    CheckpointStore.load store o.serverName = .error f := by
  have hout := openOn_comesOut hpolicy store sink l
  rw [h] at hout
  cases hstart : StartUp.of o.resume o.captureSnapshot (CheckpointStore.load store o.serverName) with
  | unopened g =>
    rw [hstart] at hout
    cases hout
    exact StartUp.answer_of_unopened hstart
  | refused g | waiting | streaming p =>
    rw [hstart] at hout
    obtain ⟨_, _, hopened, _⟩ := hout
    cases hopened

end Feed

namespace Settings

/-! ## By settings -/

theorem storeFor_keeps (s : Settings) (given : Option Store) (c : Option Content) :
    Act.Keeps (fun d : Disk => d.contentAt s.resumePath = c) (s.storeFor given) := by
  cases given with
  | some store => exact .pure store
  | none =>
    show Act.Keeps _ s.openStore
    unfold openStore
    split
    · have hopen := (FileStore.openSteps_keeps s.resumePath s.resumeSync c).act
      rw [FileStore.openSteps_act] at hopen
      exact .bind hopen fun store => .pure _
    · exact .pure _

/-- A store that is opened for the settings has what the file records, or nothing if it is not on
a file. -/
theorem load_storeFor {s : Settings} {l t : Logged Disk} {store : Store}
    (h : s.storeFor none l = .ok store t) (key : Text) :
    (⟨t.state, store⟩ : Host).load key =
      if s.checkpointBackend = "file" then FileStore.recorded s.resumePath key l.state
      else .ok .null := by
  have hkept := s.storeFor_keeps none (l.state.contentAt s.resumePath) l rfl
  rw [Act.after_of_ok h] at hkept
  change openStore s l = .ok store t at h
  unfold openStore at h
  split at h
  · rename_i hfile
    obtain ⟨file, u, hopen, hpure⟩ := Act.bind_eq_ok.1 h
    cases hpure
    obtain ⟨_, _, _, _, hcontent⟩ := FileStore.openAt_ok hopen
    rw [if_pos hfile, ← FileStore.recorded_congr hkept, FileStore.recorded_of_content hcontent]
    rfl
  · rename_i hmemory
    cases h
    rw [if_neg hmemory]
    rfl

end Settings

/-- A host has no answer only where the entry of a file denotes no position. -/
theorem Host.load_eq_error {h : Host} {key : Text} {f : Fault} :
    h.load key = .error f ↔ ∃ file entry, h.store = .file file
      ∧ file.corrupt.get? key = some entry ∧ f = .format (.badEntry entry key file.path.text) := by
  unfold load
  cases h.store with
  | memory store => simp
  | file file =>
    constructor
    · intro hload
      cases hentry : file.corrupt.get? key with
      | none =>
        have hvalue := FileStore.load_eq_ok.2 ⟨hentry, rfl⟩
        cases hvalue.symm.trans hload
      | some entry =>
        cases (FileStore.load_of_corrupt hentry).symm.trans hload
        exact ⟨file, entry, rfl, hentry, rfl⟩
    · rintro ⟨_, entry, hfile, hentry, rfl⟩
      cases hfile
      exact FileStore.load_of_corrupt hentry

namespace Settings

open Feed

/--
**Opening a feed by settings and starting it** comes out as the table has it, for any words and
positions in the settings and for whatever is stored. The checkpoint file is as it was, and so is
the store, which the feed has as it was opened.
-/
theorem start_up {s : Settings} {given : Option Store} {sink : Sink LogEntry} {l t : Logged Disk}
    {store : Store} (hstore : s.storeFor given l = .ok store t) :
    let host : Host := ⟨t.state, store⟩
    (∀ policy, OrderPolicy.ofText? s.orderPolicy = some policy →
      ComesOut (s.build given sink l) t (untouched s.options policy host sink)
        (.of s.resume (s.snapshotMode ≠ "no_data") (host.load s.serverName)))
    ∧ (OrderPolicy.ofText? s.orderPolicy = none →
      s.build given sink l = .error (.argument (.unknownPolicy s.orderPolicy)) t)
    ∧ (∀ f, host.load s.serverName = .error f ↔ ∃ file entry, store = .file file
      ∧ file.corrupt.get? s.serverName = some entry
      ∧ f = .format (.badEntry entry s.serverName file.path.text))
    ∧ t.state.contentAt s.resumePath = l.state.contentAt s.resumePath
    ∧ (given = none → host.load s.serverName =
      if s.checkpointBackend = "file" then FileStore.recorded s.resumePath s.serverName l.state
      else .ok .null) := by
  intro host
  have hbuild : s.build given sink l = openOn s.options host sink t := Act.bind_of_ok hstore
  have hkept := s.storeFor_keeps given (l.state.contentAt s.resumePath) l rfl
  rw [Act.after_of_ok hstore] at hkept
  refine ⟨fun policy hpolicy => ?_, fun hpolicy => ?_, fun f => Host.load_eq_error, hkept, ?_⟩
  · rw [hbuild]
    exact openOn_comesOut (o := s.options) hpolicy host sink t
  · rw [hbuild]
    unfold openOn
    rw [show OrderPolicy.ofText? s.options.policy = none from hpolicy]
    rfl
  · rintro rfl
    exact load_storeFor hstore s.serverName

/-- Settings for the stream of a server, with a snapshot or without and with a position to resume
from or without. -/
def forServer (snapshotMode : String) (resume : Option Position) : Settings :=
  ⟨"informix", snapshotMode, "file", ⟨.here, ["resume.json"]⟩, false, "fail", "informix_cdc",
    resume⟩

/-- A store on a file whose entry for the server denotes no position. -/
def storeWithBadEntry : FileStore where
  path := ⟨.here, ["resume.json"]⟩
  durable := false
  positions := Keyed.empty
  corrupt := Keyed.empty.insert "informix" (.text "seven")

/-- Beside an entry that denotes no position, a feed that is to wait for its snapshot does not
start, one that is not to wait does not open, and one with a position to resume from takes no
notice. -/
theorem start_up_beside_bad_entry :
    let bad : Fault := .format (.badEntry (.text "seven") "informix" "resume.json")
    let sink : Sink LogEntry := .always .accept
    let given : Option Store := some (.file storeWithBadEntry)
    let host : Host := ⟨Disk.empty, .file storeWithBadEntry⟩
    let l : Logged Disk := ⟨Disk.empty, []⟩
    let feed := fun s : Settings => untouched s.options .fail host sink
    (∀ s : Settings, s.storeFor given l = .ok (.file storeWithBadEntry) l)
    ∧ (∃ f₀ ns, (forServer "initial" none).build given sink l = .ok f₀ ⟨Disk.empty, ns⟩
      ∧ Starts ⟨f₀, ns⟩ (.error bad) (feed (forServer "initial" none) .snapshotting .null))
    ∧ (forServer "no_data" none).build given sink l = .error bad l
    ∧ (∃ f₀ ns, (forServer "initial" (some (.known 7))).build given sink l =
        .ok f₀ ⟨Disk.empty, ns⟩
      ∧ Starts ⟨f₀, ns⟩ (.ok .streaming)
        (feed (forServer "initial" (some (.known 7))) .streaming (.known 7))) := by
  intro bad sink given host l feed
  have hstore : ∀ s : Settings, s.storeFor given l = .ok (.file storeWithBadEntry) l := fun _ => rfl
  exact ⟨hstore, (start_up (hstore (forServer "initial" none))).1 .fail rfl,
    (start_up (hstore (forServer "no_data" none))).1 .fail rfl,
    (start_up (hstore (forServer "initial" (some (.known 7))))).1 .fail rfl⟩

end Settings

end Changefeed
