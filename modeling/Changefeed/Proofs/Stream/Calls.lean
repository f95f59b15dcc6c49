import Changefeed.Proofs.Action
import Changefeed.Proofs.Order
import Changefeed.Stream.Session

/-!
# What the calls to a session do

A session is called by its owner, one call after the other, and each call may
fail and leave part of its work behind. Here each call is described completely:
in which of a few ways it can end, and the state that it leaves then. Nothing
above this module looks into a call again.

`advance_cases` is the description of the one call that matters most. It is for
*quiet* sinks, which may stop the stream but do not offer it anything while they
are handed a change; only then is what was checked before the hand-over still
true after it.
-/

namespace Changefeed

/-! ## Quiet sinks -/

/-- A reaction that offers nothing more before it ends. -/
def Reaction.Quiet {α : Type} : Reaction α → Prop
  | accept | refuse _ => True
  | stop next | completeSnapshot next => next.Quiet
  | offer .. => False

/-- A sink all of whose reactions are quiet. -/
structure Sink.Quiet {α : Type} (k : Sink α) : Prop where
  upcoming : ∀ r ∈ k.upcoming, r.Quiet
  standing : k.standing.Quiet

namespace Sink

variable {α : Type} {k : Sink α}

theorem Quiet.next (h : k.Quiet) : k.next.Quiet := by
  unfold Sink.next
  cases hu : k.upcoming with
  | nil => exact h.standing
  | cons r rest => exact h.upcoming r (by rw [hu]; exact List.mem_cons_self)

theorem Quiet.advance (h : k.Quiet) : k.advance.Quiet :=
  ⟨fun r hr => h.upcoming r (List.mem_of_mem_tail hr), h.standing⟩

end Sink

/-! ## Calls -/

/-- A call to a session by its owner. -/
inductive Call where
  | completeSnapshot (p : Position)
  | beginStreaming (place : Option Position)
  | advance (c : Change)
  | commit (p : Position)
  | stop

namespace Session

variable {σ α : Type} [CheckpointStore σ]

/-- What a call does. -/
def call : Call → Act (Session σ Change) Unit
  | .completeSnapshot p => completeSnapshot p
  | .beginStreaming place => beginStreaming place
  | .advance c => advance c
  | .commit p => commit p
  | .stop => stop

/-- The session after some calls, whichever of them fail. -/
def afterCalls (l : Logged (Session σ Change)) (calls : List Call) : Logged (Session σ Change) :=
  calls.foldl (fun l k => (call k).after l) l

/-- What the store becomes when it is asked to save a position. -/
def savedStore (p : Position) (s : Logged (Session σ α)) : σ :=
  ((CheckpointStore.save s.state.key p).after ⟨s.state.store, s.notices⟩).state

/-- Asking the store to save a position goes on record and then changes nothing but the store. -/
theorem save_run (p : Position) (s : Logged (Session σ α)) :
    save p s = Act.within (fun t : Session σ α => t.store) (fun store t => { t with store })
      (CheckpointStore.save s.state.key p)
      ⟨{ s.state with trace := s.state.trace ++ [.saving s.state.key p] }, s.notices⟩ := rfl

/-- The session after its store was asked to save a position, however that ended. -/
theorem save_after (p : Position) (s : Logged (Session σ α)) :
    ((save p).after s).state =
      { s.state with trace := s.state.trace ++ [.saving s.state.key p], store := savedStore p s } := by
  unfold Act.after savedStore Act.after
  rw [save_run, Act.within]
  dsimp only
  cases CheckpointStore.save s.state.key p ⟨s.state.store, s.notices⟩ with
  | ok a t => rfl
  | error f t => rfl

omit [CheckpointStore σ] in
theorem stop_run (s : Logged (Session σ α)) :
    ∃ ns, stop s = .ok () ⟨{ s.state with phase := .stopped }, ns⟩ := by
  unfold stop
  rw [Act.state_bind]
  by_cases h : s.state.isStopped = true
  · rw [if_pos h]
    have hp : s.state.phase = .stopped := of_decide_eq_true h
    exact ⟨s.notices, by rw [← hp]; rfl⟩
  · rw [if_neg h]
    exact ⟨_, rfl⟩

omit [CheckpointStore σ] in
/-- Only a session that waits for its snapshot may leave for streaming. -/
theorem requireWaiting_of_waiting (t : Transition) {s : Logged (Session σ α)}
    (h : s.state.phase = .snapshotting) : requireWaiting t s = .ok () s := by
  unfold requireWaiting
  rw [Act.state_bind, h]
  rfl

omit [CheckpointStore σ] in
theorem requireWaiting_of_left (t : Transition) {s : Logged (Session σ α)}
    (h : s.state.phase ≠ .snapshotting) : ∃ f, requireWaiting t s = .error f s := by
  unfold requireWaiting
  rw [Act.state_bind]
  cases hp : s.state.phase with
  | snapshotting => exact absurd hp h
  | streaming => exact ⟨_, rfl⟩
  | stopped => exact ⟨_, rfl⟩

omit [CheckpointStore σ] in
theorem enterStreaming_run (p : Position) (o : Origin) (s : Logged (Session σ α)) :
    ∃ ns, enterStreaming p o s = .ok () ⟨{ s.state with reached := p, phase := .streaming }, ns⟩ :=
  ⟨_, rfl⟩

/-! ## Opening -/

/-- A session that is opened waits for its snapshot, or streams from the stored position. -/
theorem openOn_cases {S : Type} {key : Text} {store : σ} {sink : Option (Sink α)}
    {awaitSnapshot : Bool} {l t : Logged S} {s : Session σ α}
    (h : openOn key store sink awaitSnapshot l = .ok s t) :
    (awaitSnapshot = true ∧ s = waiting key store sink)
      ∨ (awaitSnapshot = false ∧ ∃ p, CheckpointStore.load store key = .ok p
          ∧ s = { waiting key store sink with reached := p, phase := .streaming }) := by
  unfold openOn at h
  cases awaitSnapshot with
  | true =>
    cases h
    exact .inl ⟨rfl, rfl⟩
  | false =>
    obtain ⟨p, u, hp, hk⟩ := Act.bind_eq_ok.1 h
    obtain ⟨hp', rfl⟩ := Act.ofExcept_eq_ok.1 hp
    cases hk
    exact .inr ⟨rfl, p, hp', rfl⟩

/-! ## Leaving for streaming -/

/--
**Completing the snapshot.** Refused by a session that does not wait for one, it
changes nothing; if the store fails to save the position, the session goes on
waiting; otherwise it streams from that position.
-/
theorem completeSnapshot_cases (p : Position) (s : Logged (Session σ α)) :
    (s.state.phase ≠ .snapshotting ∧ ∃ f, completeSnapshot p s = .error f s)
      ∨ (s.state.phase = .snapshotting ∧ ∃ f ns, completeSnapshot p s = .error f
          ⟨{ s.state with
              trace := s.state.trace ++ [.saving s.state.key p], store := savedStore p s }, ns⟩)
      ∨ (s.state.phase = .snapshotting ∧ ∃ ns, completeSnapshot p s = .ok ()
          ⟨{ s.state with
              reached := p, phase := .streaming
              trace := s.state.trace ++ [.saving s.state.key p], store := savedStore p s }, ns⟩) := by
  unfold completeSnapshot
  by_cases hp : s.state.phase = .snapshotting
  · rw [Act.bind_of_ok (requireWaiting_of_waiting _ hp)]
    have ha := save_after p s
    cases hs : save p s with
    | error f t =>
      rw [Act.after_of_error hs] at ha
      refine .inr (.inl ⟨hp, f, t.notices, ?_⟩)
      rw [Act.bind_of_error hs, ← ha]
    | ok a t =>
      rw [Act.after_of_ok hs] at ha
      obtain ⟨ns, he⟩ := enterStreaming_run p .snapshot t
      refine .inr (.inr ⟨hp, ns, ?_⟩)
      rw [Act.bind_of_ok hs, he, ha]
  · obtain ⟨f, hf⟩ := requireWaiting_of_left .completeSnapshot hp
    exact .inl ⟨hp, f, Act.bind_of_error hf⟩

/-- The position from which a session begins to stream when it is not given one to complete its
snapshot at. -/
def startOf (s : Session σ α) : Option Position → Except Fault Position
  | some p => .ok p
  | none => s.stored

/-- **Beginning to stream** without a snapshot touches neither the store nor the record. -/
theorem beginStreaming_cases (place : Option Position) (s : Logged (Session σ α)) :
    (∃ f, beginStreaming place s = .error f s)
      ∨ (s.state.phase = .snapshotting ∧ ∃ p ns, s.state.startOf place = .ok p
          ∧ beginStreaming place s = .ok () ⟨{ s.state with reached := p, phase := .streaming }, ns⟩)
      := by
  unfold beginStreaming
  by_cases hp : s.state.phase = .snapshotting
  · rw [Act.bind_of_ok (requireWaiting_of_waiting _ hp)]
    cases place with
    | some p => exact .inr ⟨hp, p, _, rfl, rfl⟩
    | none =>
      dsimp only
      rw [Act.state_bind]
      cases hs : s.state.stored with
      | error f => exact .inl ⟨f, rfl⟩
      | ok p => exact .inr ⟨hp, p, _, hs, rfl⟩
  · obtain ⟨f, hf⟩ := requireWaiting_of_left .beginStreaming hp
    exact .inl ⟨f, Act.bind_of_error hf⟩

/-- Committing saves a position that the session has reached, and refuses any other. -/
theorem commit_cases (p : Position) (s : Logged (Session σ α)) :
    (s.state.reached < p ∧ ∃ f, commit p s = .error f s)
      ∨ (¬s.state.reached < p ∧ commit p s = save p s) := by
  unfold commit
  rw [Act.state_bind]
  by_cases h : s.state.reached < p
  · rw [if_pos h]
    exact .inl ⟨h, _, rfl⟩
  · rw [if_neg h]
    exact .inr ⟨h, rfl⟩

/-! ## Advancing -/

/-- Whatever a quiet reaction does, all that can be seen of it afterwards is whether it stopped
the stream: it is carried out while the stream streams, so completing the snapshot is refused. -/
theorem carryOut_quiet {r : Reaction Change} (c : Change) :
    ∀ {s : Logged (Session σ Change)}, r.Quiet → s.state.phase ≠ .snapshotting →
      ∃ ph, (ph = s.state.phase ∨ ph = .stopped)
        ∧ ((r.carryOut callbacks c).after s).state = { s.state with phase := ph } := by
  induction r with
  | accept => intro s _ _; exact ⟨s.state.phase, .inl rfl, rfl⟩
  | refuse f => intro s _ _; exact ⟨s.state.phase, .inl rfl, rfl⟩
  | stop next ih =>
    intro s hr _
    obtain ⟨ns, hs⟩ := stop_run s
    obtain ⟨ph, hph, ha⟩ :=
      ih (s := ⟨{ s.state with phase := .stopped }, ns⟩) hr (by simp)
    refine ⟨.stopped, .inr rfl, ?_⟩
    have hph' : ph = .stopped := by rcases hph with h | h <;> exact h
    rw [hph'] at ha
    rw [Reaction.carryOut, Act.after_bind_of_ok (show callbacks.stop s = _ from hs)]
    exact ha
  | completeSnapshot next ih =>
    intro s _ hp
    -- the sink is only handed changes while the stream streams, so this is refused
    rcases completeSnapshot_cases c.position s with ⟨_, f, hf⟩ | ⟨h, _⟩ | ⟨h, _⟩
    · refine ⟨s.state.phase, .inl rfl, ?_⟩
      rw [Reaction.carryOut,
        Act.after_bind_of_error (show callbacks.completeSnapshot c.position s = _ from hf)]
    · exact absurd h hp
    · exact absurd h hp
  | offer more inner next => intro s hr _; exact hr.elim

omit [CheckpointStore σ] in
theorem requireNext_of_refusal {c : Change} {f : Fault} {s : Logged (Session σ α)}
    (h : s.state.refusal? c = some f) : requireNext c s = .error f s := by
  unfold requireNext
  rw [Act.state_bind, h]
  rfl

omit [CheckpointStore σ] in
theorem requireNext_of_none {c : Change} {s : Logged (Session σ α)}
    (h : s.state.refusal? c = none) : requireNext c s = .ok () s := by
  unfold requireNext
  rw [Act.state_bind, h]
  rfl

omit [CheckpointStore σ] in
/-- A change is not refused exactly when the session streams and has not come as far. -/
theorem refusal?_eq_none {c : Change} {s : Session σ α} :
    s.refusal? c = none ↔ s.phase = .streaming ∧ s.reached < c.position := by
  unfold refusal?
  cases s.phase with
  | stopped => simp
  | snapshotting => simp
  | streaming =>
    dsimp only
    by_cases h : c.position ≤ s.reached
    · simp [h]
    · simp [h, not_le.1 h]

theorem advance_refused {c : Change} {f : Fault} {s : Logged (Session σ Change)}
    (h : s.state.refusal? c = some f) : advance c s = .error f s := by
  unfold advance
  rw [Act.state_bind]
  cases s.state.sink with
  | none => exact Act.bind_of_error (requireNext_of_refusal h)
  | some k => exact Act.bind_of_error (requireNext_of_refusal h)

/-- Without a sink, taking a change is to count it as taken; its owner hands it over and commits. -/
theorem advance_without_sink {s : Logged (Session σ Change)} (hk : s.state.sink = none)
    (c : Change) :
    (∃ f, s.state.refusal? c = some f ∧ advance c s = .error f s)
      ∨ (s.state.phase = .streaming ∧ s.state.reached < c.position
          ∧ advance c s = .ok () ⟨{ s.state with reached := c.position }, s.notices⟩) := by
  cases hr : s.state.refusal? c with
  | some f => exact .inl ⟨f, rfl, advance_refused hr⟩
  | none =>
    obtain ⟨hp, hlt⟩ := refusal?_eq_none.1 hr
    refine .inr ⟨hp, hlt, ?_⟩
    unfold advance
    rw [Act.state_bind, hk]
    exact Act.bind_of_ok (requireNext_of_none hr)

/-- The session when its sink was handed a change and is about to react. -/
def handed (s : Session σ Change) (k : Sink Change) (c : Change) : Session σ Change :=
  { s with sink := some k.advance, trace := s.trace ++ [.handed c s.stored] }

/-- The session when its sink took a change, before that is saved. -/
def taken (s : Session σ Change) (k : Sink Change) (c : Change) : Session σ Change :=
  { s.handed k c with reached := c.position, trace := (s.handed k c).trace ++ [.taken c] }

/-- A session with a sink takes a change by handing it over first. -/
theorem advance_of_sink {s : Logged (Session σ Change)} {k : Sink Change}
    (hk : s.state.sink = some k) (c : Change) (h : s.state.refusal? c = none) :
    advance c s = (k.next.carryOut callbacks c >>= fun _ => recordTaken c >>= fun _ => settle c)
      ⟨s.state.handed k c, s.notices⟩ := by
  unfold advance
  rw [Act.state_bind, hk]
  dsimp only
  unfold deliver
  rw [Act.bind_of_ok (requireNext_of_none h)]
  unfold handOver recordHanded record nextReaction
  simp only [bind_assoc, Act.state_bind, Act.update_bind, hk, Act.pure_bind_run]
  rfl

/--
**Taking a change**, by a session with a quiet sink. A change that is refused
leaves everything as it was. One that is handed over may find the sink stopping
the stream, and the sink may fail: then only the hand-over is on record. If the
sink takes the change, the session has come as far, and what is left is to save.
-/
theorem advance_cases {s : Logged (Session σ Change)} {k : Sink Change}
    (hk : s.state.sink = some k) (hq : k.Quiet) (c : Change) :
    (∃ f, s.state.refusal? c = some f ∧ advance c s = .error f s)
      ∨ (s.state.phase = .streaming ∧ s.state.reached < c.position
          ∧ ∃ ph ns, (ph = .streaming ∨ ph = .stopped)
            ∧ ((∃ f, advance c s = .error f ⟨{ s.state.handed k c with phase := ph }, ns⟩)
              ∨ advance c s = save c.position ⟨{ s.state.taken k c with phase := ph }, ns⟩)) := by
  cases hr : s.state.refusal? c with
  | some f => exact .inl ⟨f, rfl, advance_refused hr⟩
  | none =>
    obtain ⟨hp, hlt⟩ := refusal?_eq_none.1 hr
    obtain ⟨ph, hph, ha⟩ := carryOut_quiet c (s := ⟨s.state.handed k c, s.notices⟩) hq.next
      (by show s.state.phase ≠ _; rw [hp]; simp)
    have hstop : ph = .streaming ∨ ph = .stopped := by
      rcases hph with h | h
      · exact .inl (h.trans hp)
      · exact .inr h
    rw [advance_of_sink hk c hr]
    cases hc : k.next.carryOut callbacks c ⟨s.state.handed k c, s.notices⟩ with
    | error f t =>
      rw [Act.after_of_error hc] at ha
      refine .inr ⟨hp, hlt, ph, t.notices, hstop, .inl ⟨f, ?_⟩⟩
      rw [Act.bind_of_error hc, ← ha]
    | ok a t =>
      rw [Act.after_of_ok hc] at ha
      refine .inr ⟨hp, hlt, ph, t.notices, hstop, .inr ?_⟩
      rw [Act.bind_of_ok hc, show t = ⟨t.state, t.notices⟩ from rfl, ha]
      rfl

end Session

end Changefeed
