import Changefeed.Feed.Basic
import Changefeed.Proofs.Stream.Silent

/-!
# What comes of an offer

A log entry that is offered to a feed passes four places where it can fail: it is
assembled, checked against the order of the stream, handed to the sink, and its
position is saved. What the offer ends with is what the first of them ends with
that fails, and it is counted as the fault says, whichever of them it was
(`offer_result`). In particular nothing tells a fault of order that the stream
found from one that the sink came back with.
-/

namespace Changefeed

namespace Feed

variable {σ α : Type} [CheckpointStore σ]

/-! ## The feed on the way -/

/-- A feed that has counted one more of a tally. -/
def counted (f : Feed σ) (t : Tally) : Feed σ := { f with meters := f.meters.add 1 t }

omit [CheckpointStore σ] in
@[simp] theorem counted_session (f : Feed σ) (t : Tally) : (f.counted t).session = f.session := rfl

omit [CheckpointStore σ] in
theorem counted_meters (f : Feed σ) (t : Tally) : (f.counted t).meters = f.meters.add 1 t := rfl

/-- A feed whose gauge shows a position. -/
def showing (f : Feed σ) (p : Position) : Feed σ :=
  { f with meters := { f.meters with position := p } }

/-- The feed when its sink was handed a change and is about to react. -/
def handed (f : Feed σ) (c : Change) : Feed σ :=
  { f with session := { f.session with
      sink := f.session.sink.map Sink.advance
      trace := f.session.trace ++ [Event.handed c f.session.stored] } }

/-- The feed when its sink took a change, before that is saved. -/
def taken (f : Feed σ) (c : Change) : Feed σ :=
  ({ f with session := { f.session with
      trace := f.session.trace ++ [Event.taken c] } } : Feed σ).counted .published

theorem handed_trace (f : Feed σ) (c : Change) : (f.handed c).session.trace =
    f.session.trace ++ [.handed c f.session.stored] := rfl

theorem handed_meters (f : Feed σ) (c : Change) : (f.handed c).meters = f.meters := rfl

omit [CheckpointStore σ] in
theorem taken_trace (f : Feed σ) (c : Change) : (f.taken c).session.trace =
    f.session.trace ++ [.taken c] := rfl

omit [CheckpointStore σ] in
theorem taken_meters (f : Feed σ) (c : Change) : (f.taken c).meters = f.meters.add 1 .published :=
  rfl

omit [CheckpointStore σ] in
theorem onSession_run (act : Act (Session σ LogEntry) α) (l : Logged (Feed σ)) :
    onSession act l = match act ⟨l.state.session, l.notices⟩ with
      | .ok a t => .ok a ⟨{ l.state with session := t.state }, t.notices⟩
      | .error f t => .error f ⟨{ l.state with session := t.state }, t.notices⟩ := by
  unfold onSession Act.within
  cases act ⟨l.state.session, l.notices⟩ with
  | ok a t => rfl
  | error f t => rfl

omit [CheckpointStore σ] in
theorem onSession_eq_error {act : Act (Session σ LogEntry) α} {l t : Logged (Feed σ)} {f : Fault}
    (h : onSession act l = .error f t) : ∃ u, act ⟨l.state.session, l.notices⟩ = .error f u
      ∧ t = ⟨{ l.state with session := u.state }, u.notices⟩ := by
  rw [onSession_run] at h
  cases hrun : act ⟨l.state.session, l.notices⟩ with
  | ok a u => rw [hrun] at h; cases h
  | error g u =>
    rw [hrun] at h
    cases h
    exact ⟨u, rfl, rfl⟩

omit [CheckpointStore σ] in
theorem count_run (t : Tally) (l : Logged (Feed σ)) :
    count t l = .ok () ⟨l.state.counted t, l.notices⟩ := rfl

/-! ## The four places -/

/-- What comes of handing a change to the sink of a feed. -/
def handing (c : Change) (l : Logged (Feed σ)) : EStateM.Result Fault (Logged (Feed σ)) Unit :=
  l.state.session.reaction.carryOut callbacks c
    ⟨(l.state.counted .assembled).handed c, l.notices⟩

/-- What comes of saving a change that the sink took. -/
def settling (c : Change) (l : Logged (Feed σ)) : EStateM.Result Fault (Logged (Feed σ)) Unit :=
  onSession (Session.settle c) ⟨l.state.taken c, l.notices⟩

/-- Handing a change over, as an offer does it. -/
def handToSink (c : Change) : Act (Feed σ) Unit :=
  handOver (fun c => do (← onSession Session.nextReaction).carryOut callbacks c) c

/-- What the sink is about to do is known once the hand-over is on record. -/
theorem nextReaction_run (c : Change) (f : Feed σ) (ns : List Notice) :
    (onSession (Session.recordHanded c) >>= fun _ => onSession Session.nextReaction) ⟨f, ns⟩ =
      .ok f.session.reaction ⟨f.handed c, ns⟩ := by
  have hrecord : onSession (Session.recordHanded c) ⟨f, ns⟩ = .ok () ⟨{ f with
      session := { f.session with
        trace := f.session.trace ++ [Event.handed c f.session.stored] } }, ns⟩ := rfl
  rw [Act.bind_of_ok hrecord, onSession_run]
  unfold Session.nextReaction Session.reaction handed
  rw [Act.state_bind]
  dsimp only
  cases f.session.sink with
  | none => rfl
  | some k => rfl

/-- What comes of the reaction of the sink to a change. -/
def reacting (c : Change) (l : Logged (Feed σ)) : EStateM.Result Fault (Logged (Feed σ)) Unit :=
  l.state.session.reaction.carryOut callbacks c ⟨l.state.handed c, l.notices⟩

theorem handToSink_run (c : Change) (l : Logged (Feed σ)) :
    handToSink c l = match reacting c l with
      | .ok _ u => .ok () ⟨u.state.taken c, u.notices⟩
      | .error f u => .error f u := by
  have hparts : handToSink (σ := σ) c =
      (onSession (Session.recordHanded c) >>= fun _ => onSession Session.nextReaction) >>=
        fun r => r.carryOut callbacks c >>= fun _ =>
          onSession (Session.recordTaken c) >>= fun _ => count .published := by
    unfold handToSink handOver
    simp only [bind_assoc]
  have hreaction := nextReaction_run c l.state l.notices
  rw [hparts, Act.bind_of_ok hreaction, Act.bind_run]
  unfold reacting
  cases l.state.session.reaction.carryOut callbacks c ⟨l.state.handed c, l.notices⟩ with
  | ok a u => rfl
  | error f u => rfl

omit [CheckpointStore σ] in
theorem requireNext_run (c : Change) (f : Feed σ) (ns : List Notice) :
    onSession (Session.requireNext c) ⟨f, ns⟩ = match f.session.refusal? c with
      | some g => .error g ⟨f, ns⟩
      | none => .ok () ⟨f, ns⟩ := by
  rw [onSession_run]
  cases hr : f.session.refusal? c with
  | some g => rw [Session.requireNext_of_refusal (s := ⟨f.session, ns⟩) hr]
  | none => rw [Session.requireNext_of_none (s := ⟨f.session, ns⟩) hr]

/-- An entry is processed place by place. -/
theorem process_run (e : LogEntry) (l : Logged (Feed σ)) :
    process handToSink e l = match e.assemble l.state.catalog with
      | .error f => .error f l
      | .ok c =>
        match l.state.session.refusal? c with
        | some f => .error f ⟨l.state.counted .assembled, l.notices⟩
        | none =>
          match handing c l with
          | .error f u => .error f u
          | .ok _ u =>
            match settling c u with
            | .error f v => .error f v
            | .ok _ v => .ok c v := by
  unfold process
  rw [Act.state_bind]
  cases he : e.assemble l.state.catalog with
  | error f => rfl
  | ok c =>
    have hassembled : (Act.ofExcept (.ok c) : Act (Feed σ) Change) l = .ok c l := rfl
    rw [Act.bind_of_ok hassembled, Act.bind_of_ok (count_run .assembled l)]
    have hnext := requireNext_run c (l.state.counted .assembled) l.notices
    rw [counted_session] at hnext
    dsimp only
    cases hr : l.state.session.refusal? c with
    | some f =>
      rw [hr] at hnext
      exact Act.bind_of_error hnext
    | none =>
      rw [hr] at hnext
      have hhand : handToSink c ⟨l.state.counted .assembled, l.notices⟩ = match handing c l with
          | .ok _ u => .ok () ⟨u.state.taken c, u.notices⟩
          | .error f u => .error f u := handToSink_run c _
      rw [Act.bind_of_ok hnext]
      dsimp only
      cases hh : handing c l with
      | error f u =>
        rw [hh] at hhand
        exact Act.bind_of_error hhand
      | ok a u =>
        rw [hh] at hhand
        rw [Act.bind_of_ok hhand, Act.bind_run]
        unfold settling
        dsimp only
        cases onSession (Session.settle c) ⟨u.state.taken c, u.notices⟩ with
        | error f v => rfl
        | ok a v => rfl

theorem offer_run (e : LogEntry) (l : Logged (Feed σ)) :
    offer e l = if l.state.session.isStopped then
        .error (.stopped (.offer l.state.session.key)) l
      else
        match process handToSink e l with
        | .ok c v => .ok c ⟨v.state.showing c.position, v.notices⟩
        | .error f u => .error f ⟨u.state.counted (tallyOf f), u.notices⟩ := by
  show deliver handToSink e l = _
  unfold deliver
  rw [Act.state_bind]
  by_cases hstopped : l.state.session.isStopped = true
  · rw [if_pos hstopped, if_pos hstopped]
    rfl
  · rw [if_neg hstopped, if_neg hstopped, Act.bind_run]
    unfold Act.onFault
    cases process handToSink e l with
    | ok c v => rfl
    | error f u => rfl

/-! ## How an offer ends -/

/-- The fault that the sink ends with when it is handed a change, or else the one that the store
ends with when it is to save that change. -/
def failure? (c : Change) (l : Logged (Feed σ)) : Option Fault :=
  match handing c l with
  | .error f _ => some f
  | .ok _ u =>
    match settling c u with
    | .error f _ => some f
    | .ok .. => none

/-- **What an offer ends with** is what the first of its places ends with that fails. -/
theorem offer_result (e : LogEntry) {l : Logged (Feed σ)}
    (hopen : l.state.session.phase ≠ .stopped) :
    (offer e).result l = match e.assemble l.state.catalog with
      | .error f => .error f
      | .ok c =>
        match l.state.session.refusal? c with
        | some f => .error f
        | none =>
          match failure? c l with
          | some f => .error f
          | none => .ok c := by
  have hnot : ¬l.state.session.isStopped = true := fun h => hopen (of_decide_eq_true h)
  unfold Act.result failure?
  rw [offer_run, if_neg hnot, process_run]
  cases e.assemble l.state.catalog with
  | error f => rfl
  | ok c =>
    dsimp only
    cases l.state.session.refusal? c with
    | some f => rfl
    | none =>
      dsimp only
      cases handing c l with
      | error f u => rfl
      | ok a u =>
        dsimp only
        cases settling c u with
        | error f v => rfl
        | ok a v => rfl

/-- An offer that the stream refuses leaves everything but the meters as it was. -/
theorem offer_refused {e : LogEntry} {l : Logged (Feed σ)} {c : Change} {f : Fault}
    (hopen : l.state.session.phase ≠ .stopped) (hc : e.assemble l.state.catalog = .ok c)
    (hr : l.state.session.refusal? c = some f) :
    offer e l = .error f ⟨(l.state.counted .assembled).counted (tallyOf f), l.notices⟩ := by
  have hnot : ¬l.state.session.isStopped = true := fun h => hopen (of_decide_eq_true h)
  rw [offer_run, if_neg hnot, process_run, hc]
  dsimp only
  rw [hr]

/-- An offer that nothing fails. -/
theorem offer_accepted {e : LogEntry} {l u v : Logged (Feed σ)} {c : Change}
    (hc : e.assemble l.state.catalog = .ok c) (hr : l.state.session.refusal? c = none)
    (hh : handing c l = .ok () u) (hs : settling c u = .ok () v) :
    offer e l = .ok c ⟨v.state.showing c.position, v.notices⟩ := by
  have hstreaming := (Session.refusal?_eq_none.1 hr).1
  have hnot : ¬l.state.session.isStopped = true := by
    unfold Session.isStopped
    rw [hstreaming]
    decide
  rw [offer_run, if_neg hnot, process_run, hc]
  dsimp only
  rw [hr]
  dsimp only
  rw [hh]
  dsimp only
  rw [hs]

end Feed

end Changefeed
