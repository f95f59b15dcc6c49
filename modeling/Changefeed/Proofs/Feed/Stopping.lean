import Changefeed.Checkpoint.Host
import Changefeed.Proofs.Feed.Resting

/-!
# Stopping is for good

A stream may be stopped at any time, also by its sink while that has a change, or
by the source of a drain between two items. One change may be in progress then,
and it goes on: if the sink takes it, the stream has come to its position and the
store is asked to save it (`Session.Halts`). A drain goes on to the end of the
item in progress, too, and takes no other (`drain_ends`). From then on the stream
is at rest.

What such a drain ends with is settled by the change in progress: the drain counts
it if it is saved, and otherwise ends with its fault, unless it passes over that
(`stoppedResult`).
-/

namespace Changefeed

/-- The change that comes of a turn, if one does. -/
def Turn.change? (catalog : Catalog) : Turn → Option Change
  | request (.offer e) => (e.assemble catalog).toOption
  | direct (.advance c) => some c
  | _ => none

/-- What the source stops the stream by, or offers to it, is a turn of its own. -/
def Arrival.turn? : Arrival → Option Turn
  | aside .stop => some (.request .stop)
  | item (.entry e) => some (.request (.offer e))
  | _ => none

/-- The change that comes of an arrival, if one does. -/
def Arrival.change? (catalog : Catalog) (a : Arrival) : Option Change :=
  a.turn?.bind (·.change? catalog)

/-- Whether a reaction takes the change in the end, if it is quiet and the stream does not wait for
its snapshot any more. -/
def Reaction.takes {α : Type} : Reaction α → Bool
  | accept => true
  | stop next => next.takes
  | refuse _ | completeSnapshot _ | offer .. => false

namespace Session

variable {σ α : Type} [CheckpointStore σ]

/-- How a session that was not stopped comes to be: it is asked to stop, or its sink stops it while
it has a change. That change goes on: the sink refuses it, or takes it, and then the session counts
it as taken and asks the store to save it. -/
inductive Halts (s : Session σ α) : Option Change → Session σ α → Prop
  | asked : Halts s none { s with phase := .stopped }
  | refused {c : Change} (ahead : s.refusal? c = none) (refuses : s.reaction.takes = false) :
      Halts s (some c) (s.reacted c .stopped)
  | taken {c : Change} (ahead : s.refusal? c = none) (takes : s.reaction.takes = true)
      (ns : List Notice) : Halts s (some c) (s.settled c .stopped
        ((CheckpointStore.save s.key c.position).after ⟨s.store, ns⟩).state)

theorem Halts.ahead {s t : Session σ α} {c : Change} (h : s.Halts (some c) t) :
    s.refusal? c = none := by
  cases h with
  | refused ahead => exact ahead
  | taken ahead => exact ahead

/-- Leaving for streaming does not stop a session, and neither does a commit. -/
theorem completeSnapshot_open (p : Position) :
    Act.Keeps (fun s : Session σ α => s.phase ≠ .stopped) (completeSnapshot p) := by
  intro s h
  rcases completeSnapshot_cases p s with ⟨_, f, hf⟩ | ⟨_, f, ns, hf⟩ | ⟨_, ns, hok⟩
  · rw [Act.after_of_error hf]
    exact h
  · rw [Act.after_of_error hf]
    exact h
  · rw [Act.after_of_ok hok]
    simp

theorem beginStreaming_open (place : Option Position) :
    Act.Keeps (fun s : Session σ α => s.phase ≠ .stopped) (beginStreaming place) := by
  intro s h
  rcases beginStreaming_cases place s with ⟨f, hf⟩ | ⟨_, p, ns, _, hok⟩
  · rw [Act.after_of_error hf]
    exact h
  · rw [Act.after_of_ok hok]
    simp

theorem commit_open (p : Position) :
    Act.Keeps (fun s : Session σ α => s.phase ≠ .stopped) (commit p) := by
  intro s h
  rcases commit_cases p s with ⟨_, f, hf⟩ | ⟨_, hsave⟩
  · rw [Act.after_of_error hf]
    exact h
  · rw [Act.after_congr hsave, save_after]
    exact h

end Session

namespace Feed

variable {σ : Type} [CheckpointStore σ]

/-! ## How a feed comes to be stopped -/

/-- Whether the owner stops the stream in a turn, or the sink does that is handed a change. -/
def StopsIn (l : Logged (Feed σ)) (t : Turn) : Prop :=
  t = .request .stop ∨ t = .direct .stop ∨ ∃ c next, t.change? l.state.catalog = some c
    ∧ l.state.session.refusal? c = none ∧ l.state.session.reaction = .stop next

/-- Whatever the sink does with a change, a stream that was stopped stays stopped. -/
theorem carryOut_stopped (r : Reaction LogEntry) (c : Change) :
    Act.Keeps (fun f : Feed σ => f.session.phase = .stopped) (r.carryOut callbacks c) := by
  induction r generalizing c with
  | accept => exact .pure ()
  | refuse f => exact .fail f
  | stop next ih =>
    refine .bind (fun l h => ?_) fun _ => ih c
    exact (stop_rests l).phase
  | completeSnapshot next ih =>
    refine .bind (fun l h => ?_) fun _ => ih c
    exact (turn_rests h (.request (.completeSnapshot c.position))).phase
  | offer more inner next _ ih =>
    refine .bind (.outcome fun l h => ?_) fun ended => ih ended c
    have hstopped : l.state.session.isStopped = true := decide_eq_true h
    let hand : Change → Act (Feed σ) Unit := handOver (inner.carryOut callbacks)
    -- a stopped feed refuses what its sink offers before anything of it is handed over
    have hrefused : deliver hand more l = .error (.stopped (.offer l.state.session.key)) l := by
      unfold deliver
      rw [Act.state_bind, if_pos hstopped]
      rfl
    have hrun : callbacks.offer (inner.carryOut callbacks) more l =
        .error (.stopped (.offer l.state.session.key)) l := Act.bind_of_error hrefused
    rw [Act.after_of_error hrun]
    exact h

/-- Saving a change leaves the stream in its phase. -/
theorem settle_phase (c : Change) (l : Logged (Feed σ)) :
    ((onSession (Session.settle c)).after l).state.session.phase = l.state.session.phase := by
  have hsettle : Session.settle c ⟨l.state.session, l.notices⟩ =
      Session.save c.position ⟨{ l.state.session with reached := c.position }, l.notices⟩ := rfl
  rw [onSession_after, Act.after_congr hsettle, Session.save_after]

omit [CheckpointStore σ] in
theorem taken_phase (f : Feed σ) (c : Change) : (f.taken c).session.phase = f.session.phase := by
  unfold taken
  rw [counted_session]

/-- A sink that stops the stream while it has a change leaves it stopped, whatever becomes of the
change. -/
theorem advance_stops {l : Logged (Feed σ)} {c : Change} {next : Reaction LogEntry}
    (hahead : l.state.session.refusal? c = none) (hreaction : l.state.session.reaction = .stop next) :
    ((advance c).after l).state.session.phase = .stopped := by
  have hrun := advance_run c l
  rw [hahead] at hrun
  dsimp only at hrun
  obtain ⟨ns, hstop⟩ := stop_run ⟨l.state.handed c, l.notices⟩
  have hkept := carryOut_stopped next c ⟨(l.state.handed c).inPhase .stopped, ns⟩ rfl
  -- the sink stops the stream first, and nothing that it does after that undoes it
  have hreacting : reacting c l =
      next.carryOut callbacks c ⟨(l.state.handed c).inPhase .stopped, ns⟩ := by
    unfold reacting
    rw [hreaction]
    exact Act.bind_of_ok hstop
  rw [hreacting] at hrun
  cases hnext : next.carryOut callbacks c ⟨(l.state.handed c).inPhase .stopped, ns⟩ with
  | error f u =>
    rw [hnext] at hrun
    rw [Act.after_of_error hnext] at hkept
    rw [Act.after_of_error hrun]
    exact hkept
  | ok a u =>
    rw [hnext] at hrun
    rw [Act.after_of_ok hnext] at hkept
    have hsettling : advance c l = onSession (Session.settle c) ⟨u.state.taken c, u.notices⟩ := hrun
    rw [Act.after_congr hsettling, settle_phase, taken_phase]
    exact hkept

/-- Apart from its meters, an offer leaves what taking the change leaves. -/
theorem offer_session_of_assembled {l : Logged (Feed σ)} {e : LogEntry} {c : Change} {m : Meters}
    (hrun : offer e l = match advance c ⟨{ l.state with meters := m }, l.notices⟩ with
      | .ok _ v =>
        .ok c ⟨{ v.state with meters := { v.state.meters with position := c.position } }, v.notices⟩
      | .error f u =>
        .error f ⟨{ u.state with meters := u.state.meters.add 1 (tallyOf f) }, u.notices⟩) :
    ((offer e).after l).state.session =
      ((advance c).after ⟨{ l.state with meters := m }, l.notices⟩).state.session := by
  cases hadvance : advance c ⟨{ l.state with meters := m }, l.notices⟩ with
  | ok a v =>
    rw [hadvance] at hrun
    rw [Act.after_of_ok hrun, Act.after_of_ok hadvance]
  | error f u =>
    rw [hadvance] at hrun
    rw [Act.after_of_error hrun, Act.after_of_error hadvance]

theorem offer_session {l : Logged (Feed σ)} (hopen : l.state.session.phase ≠ .stopped) {e : LogEntry}
    {c : Change} (hc : e.assemble l.state.catalog = .ok c) : ∃ m, ((offer e).after l).state.session =
      ((advance c).after ⟨{ l.state with meters := m }, l.notices⟩).state.session := by
  have hrun := offer_eq e hopen
  rw [hc] at hrun
  exact ⟨_, offer_session_of_assembled hrun⟩

/-- The change of a turn comes of an offer, or is taken as it is. -/
theorem change_cases {catalog : Catalog} {t : Turn} {c : Change} (h : t.change? catalog = some c) :
    (∃ e, t = .request (.offer e) ∧ e.assemble catalog = .ok c) ∨ t = .direct (.advance c) := by
  unfold Turn.change? at h
  split at h
  · rename_i e
    cases he : e.assemble catalog with
    | error f => rw [he] at h; cases h
    | ok c' => rw [he] at h; cases h; exact .inl ⟨e, rfl, he⟩
  · cases h
    exact .inr rfl
  · cases h

/-- A call of stop leaves the stream stopped, whoever makes it. -/
theorem turn_stops {l : Logged (Feed σ)} {t : Turn} (h : StopsIn l t) :
    ((turn t).after l).state.session.phase = .stopped := by
  rcases h with rfl | rfl | ⟨c, next, hc, hahead, hreaction⟩
  · exact (stop_rests l).phase
  · exact (stop_rests l).phase
  rcases change_cases hc with ⟨e, rfl, he⟩ | rfl
  · have hopen : l.state.session.phase ≠ .stopped := by
      rw [(Session.refusal?_eq_none.1 hahead).1]
      simp
    obtain ⟨m, hsession⟩ := offer_session hopen he
    have hafter : (turn (.request (.offer e))).after l = (offer e).after l := Act.after_discard ..
    rw [hafter, hsession]
    exact advance_stops (l := ⟨{ l.state with meters := m }, l.notices⟩) hahead hreaction
  · exact advance_stops hahead hreaction

/-! ## The change in progress -/

/-- Whether the sink takes a change can be told from its reaction. -/
theorem carryOut_takes {r : Reaction LogEntry} (c : Change) : ∀ {l : Logged (Feed σ)}, r.Quiet →
    l.state.session.phase ≠ .snapshotting → (r.carryOut callbacks c).endsWell l = r.takes := by
  induction r with
  | accept => intro l _ _; rfl
  | refuse f => intro l _ _; rfl
  | stop next ih =>
    intro l hr _
    obtain ⟨ns, hs⟩ := stop_run l
    have hnext : next.Quiet := hr
    rw [Reaction.carryOut, Act.endsWell_bind_of_ok (show callbacks.stop l = _ from hs)]
    exact ih hnext (by simp [inPhase])
  | completeSnapshot next ih =>
    intro l _ hleft
    obtain ⟨f, hf⟩ := completeSnapshot_of_left c.position hleft
    rw [Reaction.carryOut,
      Act.endsWell_bind_of_error (show callbacks.completeSnapshot c.position l = _ from hf)]
    rfl
  | offer more inner next => intro l hr _; exact hr.elim

theorem stage_handed_iff {l : Logged (Feed σ)} (hq : l.state.session.Quiet) {c : Change}
    (hahead : l.state.session.refusal? c = none) :
    stage c l = .handed ↔ l.state.session.reaction.takes = false := by
  have hleft : (l.state.handed c).session.phase ≠ .snapshotting := by
    show l.state.session.phase ≠ _
    rw [(Session.refusal?_eq_none.1 hahead).1]
    simp
  have hends := carryOut_takes c (l := ⟨l.state.handed c, l.notices⟩) hq.reaction hleft
  have hreacting : l.state.session.reaction.carryOut callbacks c ⟨l.state.handed c, l.notices⟩ =
      reacting c l := rfl
  unfold Act.endsWell at hends
  rw [hreacting] at hends
  rw [← hends]
  unfold stage
  rw [hahead]
  cases reacting c l with
  | error f u => simp
  | ok a u =>
    dsimp only
    cases settling c u <;> simp

/-- **The change in progress** when its sink stops the stream goes on. -/
theorem advance_halts {l : Logged (Feed σ)} (hq : l.state.session.Quiet)
    (hopen : l.state.session.phase ≠ .stopped) (c : Change)
    (hstopped : ((advance c).after l).state.session.phase = .stopped) :
    l.state.session.Halts (some c) ((advance c).after l).state.session := by
  have htakes (hahead : l.state.session.refusal? c = none) (hstage : stage c l ≠ .handed) :
      l.state.session.reaction.takes = true :=
    Bool.eq_true_of_not_eq_false fun h => hstage ((stage_handed_iff hq hahead).2 h)
  rcases advance_ending hq c with ⟨_, _, hr⟩ | ⟨ahead, _, hs, hr⟩ | ⟨ahead, _, save, hs, hr⟩
    | ⟨ahead, _, save, hs, hr⟩
  · rw [Act.after_of_error hr] at hstopped
    exact absurd hstopped hopen
  · rw [Act.after_of_error hr] at hstopped ⊢
    obtain rfl := hstopped
    exact .refused ahead ((stage_handed_iff hq ahead).1 hs)
  · rw [Act.after_of_error hr] at hstopped ⊢
    obtain rfl := hstopped
    rw [← Act.after_of_error save]
    exact .taken ahead (htakes ahead (by rw [hs]; simp)) _
  · rw [Act.after_of_ok hr] at hstopped ⊢
    obtain rfl := hstopped
    rw [← Act.after_of_ok save]
    exact .taken ahead (htakes ahead (by rw [hs]; simp)) _

theorem offer_halts {l : Logged (Feed σ)} (hq : l.state.session.Quiet)
    (hopen : l.state.session.phase ≠ .stopped) (e : LogEntry)
    (hstopped : ((offer e).after l).state.session.phase = .stopped) : l.state.session.Halts
      (e.assemble l.state.catalog).toOption ((offer e).after l).state.session := by
  cases hc : e.assemble l.state.catalog with
  | error f =>
    have hrun := offer_eq e hopen
    rw [hc] at hrun
    rw [Act.after_of_error hrun] at hstopped
    exact absurd hstopped hopen
  | ok c =>
    obtain ⟨m, hsession⟩ := offer_session hopen hc
    rw [hsession] at hstopped ⊢
    exact advance_halts (l := ⟨{ l.state with meters := m }, l.notices⟩) hq hopen c hstopped

/-! ## Who stops a stream -/

/-- That a feed is not stopped. -/
def Open (f : Feed σ) : Prop := f.session.phase ≠ .stopped

omit [CheckpointStore σ] in
theorem onSession_open {act : Act (Session σ LogEntry) Unit}
    (h : Act.Keeps (fun s => s.phase ≠ .stopped) act) : Act.Keeps Open (onSession act) :=
  .within fun f ns hf => h ⟨f.session, ns⟩ hf

theorem completeSnapshot_open (p : Position) : Act.Keeps (Open (σ := σ)) (completeSnapshot p) :=
  .bind (onSession_open (Session.completeSnapshot_open p)) fun _ => .update fun _ h => h

theorem beginStreaming_open (place : Option Position) :
    Act.Keeps (Open (σ := σ)) (beginStreaming place) :=
  .bind (onSession_open (Session.beginStreaming_open place)) fun _ =>
    .bind .state fun _ => .update fun _ h => h

theorem start_open : Act.Keeps (Open (σ := σ)) start := by
  intro l h
  rcases start_after l with hsame | ⟨p, hbegun⟩
  · rw [hsame]
    exact h
  · rw [hbegun]
    exact beginStreaming_open (some p) l h

/-- **Who stops a stream** in a turn that drains nothing: its owner, or the sink while it has the
change of the turn. -/
theorem turn_halts {l : Logged (Feed σ)} (hq : l.state.session.Quiet) (hopen : Open l.state) {t : Turn}
    (hdrain : ∀ source, t ≠ .request (.drain source))
    (hstopped : ((turn t).after l).state.session.phase = .stopped) :
    l.state.session.Halts (t.change? l.state.catalog) ((turn t).after l).state.session := by
  -- a turn that leaves the stream open has nothing to answer for
  have hnever (h : Open ((turn t).after l).state) :
      l.state.session.Halts (t.change? l.state.catalog) ((turn t).after l).state.session :=
    absurd hstopped h
  have hasked : l.state.session.Halts none (stop.after l).state.session := by
    rw [stop_after]
    exact .asked
  cases t with
  | request r =>
    cases r with
    | declare table columns =>
      refine hnever ?_
      unfold Open turn request onCatalog
      rw [Act.after_within]
      exact hopen
    | unregister table => exact hnever hopen
    | start =>
      refine hnever ?_
      have hafter : (turn (.request .start)).after l = start.after l := Act.after_discard ..
      rw [hafter]
      exact start_open l hopen
    | beginStreaming place => exact hnever (beginStreaming_open place l hopen)
    | completeSnapshot p => exact hnever (completeSnapshot_open p l hopen)
    | offer e =>
      have hafter : (turn (.request (.offer e))).after l = (offer e).after l := Act.after_discard ..
      rw [hafter] at hstopped ⊢
      exact offer_halts hq hopen e hstopped
    | drain source => exact absurd rfl (hdrain source)
    | stop => exact hasked
  | direct k =>
    cases k with
    | completeSnapshot p => exact hnever (onSession_open (Session.completeSnapshot_open p) l hopen)
    | beginStreaming place =>
      exact hnever (onSession_open (Session.beginStreaming_open place) l hopen)
    | advance c => exact advance_halts hq hopen c hstopped
    | commit p => exact hnever (onSession_open (Session.commit_open p) l hopen)
    | stop => exact hasked

/-! ## Drains -/

/-- A drain goes arrival by arrival: one of them either ends it, whatever would come after, or the
drain goes on with what comes after. -/
theorem drainFrom_step (d : Drained) (a : Arrival) (l : Logged (Feed σ)) :
    (∃ d' t, (∀ rest, drainFrom d (a :: rest) l = .ok d' t)
        ∧ ∀ rest, offerings l (a :: rest) = offerings l [a])
      ∨ ∃ d' t, d'.fault = d.fault ∧ (∀ rest, drainFrom d (a :: rest) l = drainFrom d' rest t)
        ∧ ∀ rest, offerings l (a :: rest) = offerings l [a] ++ offerings t rest := by
  cases a with
  | broken f => exact .inl ⟨_, l, fun _ => rfl, fun _ => rfl⟩
  | unreadable f => exact .inl ⟨_, l, fun _ => rfl, fun _ => rfl⟩
  | aside a =>
    cases hrun : letHappen a l with
    | error f t =>
      refine .inl ⟨d.fail f, t, fun rest => ?_, fun rest => ?_⟩
      · rw [drainFrom_aside, hrun]
      · rw [offerings, offerings, hrun]
    | ok u t =>
      refine .inr ⟨d, t, rfl, fun rest => ?_, fun rest => ?_⟩
      · rw [drainFrom_aside, hrun]
      · rw [offerings, offerings, hrun]
        rfl
  | item i =>
    by_cases hstopped : l.state.session.phase = .stopped
    · refine .inl ⟨_, _, drainFrom_stopped hstopped d i, fun rest => ?_⟩
      rw [offerings_stopped hstopped, offerings_stopped hstopped]
    · cases hrun : take i l with
      | error f t =>
        refine .inl ⟨d.pull.fail f, t, fun rest => ?_, fun rest => ?_⟩
        · rw [drainFrom_item hstopped, hrun]
        · rw [offerings_item hstopped, offerings_item hstopped, hrun]
      | ok n t =>
        refine .inr ⟨d.pull.emit n, t, rfl, fun rest => ?_, fun rest => ?_⟩
        · rw [drainFrom_item hstopped, hrun]
        · rw [offerings_item hstopped, offerings_item hstopped, hrun]
          simp [offerings]

/-- A drain of a longer source ends early, or goes on with the rest of it. -/
theorem drainFrom_append (before after : List Arrival) : ∀ {d : Drained} {l : Logged (Feed σ)},
    (drainFrom d (before ++ after) l = drainFrom d before l
        ∧ offerings l (before ++ after) = offerings l before)
      ∨ ∃ d' t, d'.fault = d.fault ∧ drainFrom d before l = .ok d' t
        ∧ drainFrom d (before ++ after) l = drainFrom d' after t
        ∧ offerings l (before ++ after) = offerings l before ++ offerings t after := by
  induction before with
  | nil => intro d l; exact .inr ⟨d, l, rfl, rfl, rfl, rfl⟩
  | cons a rest ih =>
    intro d l
    rcases drainFrom_step d a l with ⟨d', t, hdrain, hoffered⟩ | ⟨d', t, hfault, hdrain, hoffered⟩
    · left
      rw [List.cons_append, hdrain, hdrain, hoffered, hoffered rest]
      exact ⟨rfl, rfl⟩
    · rw [List.cons_append, hdrain, hdrain, hoffered, hoffered rest]
      rcases ih (d := d') (l := t) with ⟨hsame, hnone⟩ | ⟨d'', u, hfault', hbefore, hrest, hmore⟩
      · rw [hsame, hnone]
        exact .inl ⟨rfl, rfl⟩
      · rw [hmore]
        exact .inr ⟨d'', u, hfault'.trans hfault, hbefore, hrest, (List.append_assoc ..).symm⟩

/-- A drain that comes to the end of an arrival with the stream stopped takes and offers nothing of
what comes after it. -/
theorem drain_ends {before : List Arrival} (after : List Arrival) {l t : Logged (Feed σ)} {d : Drained}
    (hbefore : drain before l = .ok d t) (hstopped : t.state.session.phase = .stopped) :
    offerings l (before ++ after) = offerings l before
      ∧ ∃ d' u, drain (before ++ after) l = .ok d' u ∧ d'.emitted = d.emitted
        ∧ t.state.session.Rests [] u.state.session
        ∧ (d'.fault = d.fault ∨ d.fault = none ∧ d'.fault = sourceFault? t after) := by
  -- the drain had ended before it came to the rest of the source, or goes on into it at rest
  rcases drainFrom_append before after (d := .start) (l := l) with
    ⟨hsame, hnone⟩ | ⟨d', t', hfault, hbefore', hrest, hmore⟩
  · exact ⟨hnone, d, t, hsame.trans hbefore, rfl, .refl hstopped, .inl rfl⟩
  · cases hbefore'.symm.trans hbefore
    obtain ⟨hnone, d', u, hrun, hemitted, hlast, hrests⟩ :=
      drainFrom_rests after hstopped hfault
    rw [hnone, List.append_nil] at hmore
    exact ⟨hmore, d', u, hrest.trans hrun, hemitted, hrests, .inr ⟨hfault, hlast⟩⟩

/-- A drain of one arrival leaves what that leaves. -/
theorem drainFrom_aside_after (d : Drained) (a : Aside) (l : Logged (Feed σ)) :
    (drainFrom d [.aside a]).after l = (letHappen a).after l := by
  unfold Act.after
  rw [drainFrom_aside]
  cases letHappen a l <;> rfl

theorem drainFrom_item_after {l : Logged (Feed σ)} (hopen : Open l.state) (d : Drained) (i : Item) :
    (drainFrom d [.item i]).after l = (take i).after l := by
  unfold Act.after
  rw [drainFrom_item hopen]
  cases take i l <;> rfl

/-- A call of stop leaves the stream stopped also in the course of a drain. -/
theorem arrival_stops {l : Logged (Feed σ)} (d : Drained) {a : Arrival} {t : Turn}
    (ha : a.turn? = some t) (h : StopsIn l t) :
    ((drainFrom d [a]).after l).state.session.phase = .stopped := by
  unfold Arrival.turn? at ha
  split at ha
  · rw [drainFrom_aside_after]
    exact (stop_rests l).phase
  · rename_i e
    cases ha
    have hstopped := turn_stops h
    have hafter : (turn (.request (.offer e))).after l = (offer e).after l := Act.after_discard ..
    rw [hafter] at hstopped
    rcases h with h | h | ⟨c, _, _, hahead, _⟩
    · cases h
    · cases h
    · have hopen : Open l.state := by
        unfold Open
        rw [(Session.refusal?_eq_none.1 hahead).1]
        simp
      rw [drainFrom_item_after hopen, take_entry_after]
      exact hstopped
  · cases ha

/-- Who stops a stream while an arrival is in progress: the source, or the sink while it has the
change that comes of it. -/
theorem arrival_halts {l : Logged (Feed σ)} {d : Drained} {a : Arrival}
    (hq : l.state.session.Quiet) (hopen : Open l.state)
    (hstopped : ((drainFrom d [a]).after l).state.session.phase = .stopped) :
    l.state.session.Halts (a.change? l.state.catalog)
      ((drainFrom d [a]).after l).state.session := by
  cases a with
  | broken f => exact absurd hstopped hopen
  | unreadable f => exact absurd hstopped hopen
  | aside a =>
    rw [drainFrom_aside_after] at hstopped ⊢
    cases a with
    | declare table columns =>
      unfold letHappen onCatalog at hstopped
      rw [Act.after_within] at hstopped
      exact absurd hstopped hopen
    | stop =>
      have hstop : ((letHappen .stop).after l).state = l.state.inPhase .stopped := stop_after l
      rw [hstop]
      exact .asked
    | sink k => exact absurd hstopped hopen
  | item i =>
    rw [drainFrom_item_after hopen] at hstopped ⊢
    cases i with
    | snapshot p =>
      rw [take_snapshot_after] at hstopped
      exact absurd hstopped (completeSnapshot_open p l hopen)
    | entry e =>
      rw [take_entry_after] at hstopped ⊢
      exact offer_halts hq hopen e hstopped

/-! ## What a drain ends with -/

/-- What a drain that has taken `n` changes ends with if the stream is stopped in the course of an
arrival. A change in progress still counts if the sink takes it and the store saves it. If not, its
fault ends the drain, unless that is a fault of order and passed over. -/
def stoppedResult (n : Nat) (l : Logged (Feed σ)) (a : Arrival) : Except Fault Nat :=
  match a.change? l.state.catalog with
  | none => .ok n
  | some c =>
    match failure? c l with
    | none => .ok (n + 1)
    | some f => if l.state.policy = .skip ∧ f.family = .order then .ok n else .error f

/-- What a drain that has taken `n` changes ends with if it takes none of the rest of its source. -/
def sourceResult (l : Logged (Feed σ)) (source : List Arrival) (n : Nat) : Except Fault Nat :=
  match sourceFault? l source with
  | none => .ok n
  | some f => .error f

/-- A drain in the course of an arrival: it ends there, or has come some way and goes on. -/
inductive Passes (d : Drained) (a : Arrival) (l : Logged (Feed σ)) (d' : Drained)
    (t : Logged (Feed σ)) : Prop
  | ends (failed : d'.fault.isSome) (run : ∀ rest, drainFrom d (a :: rest) l = .ok d' t)
      (offered : ∀ rest, offerings l (a :: rest) = offerings l [a])
  | goesOn (unfailed : d'.fault = none)
      (run : ∀ rest, drainFrom d (a :: rest) l = drainFrom d' rest t)
      (offered : ∀ rest, offerings l (a :: rest) = offerings l [a] ++ offerings t rest)

theorem Passes.after {d d' : Drained} {a : Arrival} {l t : Logged (Feed σ)} (h : Passes d a l d' t) :
    (drainFrom d [a]).after l = t := by
  cases h with
  | ends _ hrun _ => exact Act.after_of_ok (hrun [])
  | goesOn _ hrun _ => exact Act.after_congr (hrun [])

/-- What an offer ends with that leaves the stream stopped is what the change in progress does. -/
theorem offer_result_of_stopped {l : Logged (Feed σ)} (hq : l.state.session.Quiet)
    (hopen : Open l.state) {e : LogEntry} (hstopped : ((offer e).after l).state.session.phase = .stopped) :
    ∃ c, e.assemble l.state.catalog = .ok c ∧ (offer e).result l = match failure? c l with
      | some f => .error f
      | none => .ok c := by
  have hresult := offer_result e hopen
  have hhalts := offer_halts hq hopen e hstopped
  cases hc : e.assemble l.state.catalog with
  | error f =>
    have hrun := offer_eq e hopen
    rw [hc] at hrun
    rw [Act.after_of_error hrun] at hstopped
    exact absurd hstopped hopen
  | ok c =>
    rw [hc] at hresult hhalts
    dsimp only at hresult
    rw [hhalts.ahead] at hresult
    exact ⟨c, rfl, hresult⟩

/-- **The arrival in whose course a stream is stopped** settles what the drain has come to. -/
theorem arrival_passes {l : Logged (Feed σ)} {d : Drained} {a : Arrival} (hq : l.state.session.Quiet)
    (hopen : Open l.state) (hd : d.fault = none)
    (hstopped : ((drainFrom d [a]).after l).state.session.phase = .stopped) :
    ∃ d' t, Passes d a l d' t ∧ d'.result = stoppedResult d.emitted l a := by
  cases a with
  | broken f => exact absurd hstopped hopen
  | unreadable f => exact absurd hstopped hopen
  | aside a =>
    cases a with
    | declare table columns =>
      rw [drainFrom_aside_after] at hstopped
      unfold letHappen onCatalog at hstopped
      rw [Act.after_within] at hstopped
      exact absurd hstopped hopen
    | stop =>
      obtain ⟨ns, hstop⟩ := stop_run l
      have hrun : letHappen .stop l = .ok () ⟨l.state.inPhase .stopped, ns⟩ := hstop
      refine ⟨d, ⟨l.state.inPhase .stopped, ns⟩, .goesOn hd (fun rest => ?_) (fun rest => ?_),
        Drained.result_of_unfailed hd⟩
      · rw [drainFrom_aside, hrun]
      · rw [offerings, offerings, hrun]
        rfl
    | sink k =>
      rw [drainFrom_aside_after] at hstopped
      exact absurd hstopped hopen
  | item i =>
    rw [drainFrom_item_after hopen] at hstopped
    cases i with
    | snapshot p =>
      rw [take_snapshot_after] at hstopped
      exact absurd hstopped (completeSnapshot_open p l hopen)
    | entry e =>
      rw [take_entry_after] at hstopped
      obtain ⟨c, hc, hresult⟩ := offer_result_of_stopped hq hopen hstopped
      have hended : stoppedResult d.emitted l (.item (.entry e)) = match failure? c l with
          | none => .ok (d.emitted + 1)
          | some f => if l.state.policy = .skip ∧ f.family = .order then .ok d.emitted
              else .error f := by
        have hchange : Arrival.change? l.state.catalog (.item (.entry e)) = some c := by
          show (e.assemble l.state.catalog).toOption = some c
          rw [hc]
          rfl
        unfold stoppedResult
        rw [hchange]
      have hpolicy := offer_policy e l
      have htake := take_entry_run e l
      rw [hended]
      cases hoffer : offer e l with
      | ok c' t =>
        rw [Act.result_of_ok hoffer] at hresult
        rw [hoffer] at htake
        have hsaved : failure? c l = none := by
          cases hf : failure? c l with
          | none => rfl
          | some f => rw [hf] at hresult; cases hresult
        rw [hsaved]
        refine ⟨d.pull.emit 1, t, .goesOn hd (fun rest => ?_) (fun rest => ?_),
          Drained.result_of_unfailed hd⟩
        · rw [drainFrom_item hopen, htake]
        · rw [offerings_item hopen, offerings_item hopen, htake]
          simp [offerings]
      | error f t =>
        rw [Act.result_of_error hoffer] at hresult
        rw [Act.after_of_error hoffer] at hpolicy
        rw [hoffer] at htake
        dsimp only at htake
        have hfails : failure? c l = some f := by
          cases hf : failure? c l with
          | none => rw [hf] at hresult; cases hresult
          | some g => rw [hf] at hresult; cases hresult; rfl
        have hskips : t.state.skips f = true ↔ l.state.policy = .skip ∧ f.family = .order := by
          unfold skips
          rw [hpolicy, Bool.and_eq_true, decide_eq_true_iff, decide_eq_true_iff]
        rw [hfails]
        dsimp only
        by_cases hskip : l.state.policy = .skip ∧ f.family = .order
        · rw [if_pos (hskips.2 hskip)] at htake
          rw [if_pos hskip]
          refine ⟨d.pull.emit 0, ⟨t.state, t.notices ++ [.skipped f]⟩, .goesOn hd (fun rest => ?_)
            (fun rest => ?_), Drained.result_of_unfailed hd⟩
          · rw [drainFrom_item hopen, htake]
          · rw [offerings_item hopen, offerings_item hopen, htake]
            simp [offerings]
        · rw [if_neg fun h => hskip (hskips.1 h)] at htake
          rw [if_neg hskip]
          refine ⟨d.pull.fail f, t, .ends rfl (fun rest => ?_) (fun rest => ?_), rfl⟩
          · rw [drainFrom_item hopen, htake]
          · rw [offerings_item hopen, offerings_item hopen, htake]

/-- In a drain in whose course the stream is stopped, that happens during one of the arrivals, to
which the drain comes without a fault. -/
theorem drainFrom_halts {source : List Arrival} : ∀ {d : Drained} {l : Logged (Feed σ)},
    (∀ a ∈ source, a.Quiet) → l.state.session.Quiet → Open l.state →
    ((drainFrom d source).after l).state.session.phase = .stopped →
    ∃ before a after d' t, source = before ++ a :: after ∧ d'.fault = d.fault
      ∧ (∀ rest, drainFrom d (before ++ rest) l = drainFrom d' rest t
          ∧ offerings l (before ++ rest) = offerings l before ++ offerings t rest)
      ∧ t.state.session.Quiet ∧ Open t.state
      ∧ ((drainFrom d' [a]).after t).state.session.phase = .stopped := by
  induction source with
  | nil => intro d l _ _ hopen hstopped; exact absurd hstopped hopen
  | cons a rest ih =>
    intro d l hs hq hopen hstopped
    have hquiet : ((drainFrom d [a]).after l).state.session.Quiet :=
      (Lasting.quiet.drainFrom (h := []) (by simpa using hs a List.mem_cons_self) hq hq).1
    -- the arrival in progress is the first after which the stream is stopped
    have hhere (hthis : ((drainFrom d [a]).after l).state.session.phase = .stopped) :
        ∃ before b after d' t, a :: rest = before ++ b :: after ∧ d'.fault = d.fault
          ∧ (∀ rest, drainFrom d (before ++ rest) l = drainFrom d' rest t
              ∧ offerings l (before ++ rest) = offerings l before ++ offerings t rest)
          ∧ t.state.session.Quiet ∧ Open t.state
          ∧ ((drainFrom d' [b]).after t).state.session.phase = .stopped :=
      ⟨[], a, rest, d, l, rfl, rfl, fun _ => ⟨rfl, rfl⟩, hq, hopen, hthis⟩
    rcases drainFrom_step d a l with ⟨d', t, hdrain, _⟩ | ⟨d', t, hfault, hdrain, hoffered⟩
    · rw [Act.after_congr ((hdrain rest).trans (hdrain []).symm)] at hstopped
      exact hhere hstopped
    · have hrun : (drainFrom d [a]).after l = t := Act.after_of_ok (hdrain [])
      by_cases ht : t.state.session.phase = .stopped
      · exact hhere (hrun ▸ ht)
      · rw [hrun] at hquiet
        rw [Act.after_congr (hdrain rest)] at hstopped
        obtain ⟨before, b, after, d₁, t₁, rfl, hfault₁, hbefore, hq₁, hopen₁, hthis⟩ :=
          ih (fun b hb => hs b (List.mem_cons_of_mem _ hb)) hquiet ht hstopped
        refine ⟨a :: before, b, after, d₁, t₁, rfl, hfault₁.trans hfault, fun more => ⟨?_, ?_⟩,
          hq₁, hopen₁, hthis⟩
        · exact (hdrain (before ++ more)).trans (hbefore more).1
        · rw [List.cons_append, hoffered, hoffered before, (hbefore more).2, List.append_assoc]

/-- **A drain in whose course the stream is stopped** comes to one arrival that does it, goes on to the
end of that, and takes nothing of the rest of its source. -/
theorem drain_halts {l : Logged (Feed σ)} {source : List Arrival} (hq : l.state.session.Quiet)
    (hopen : Open l.state) (hs : ∀ a ∈ source, a.Quiet)
    (hstopped : ((drain source).after l).state.session.phase = .stopped) :
    ∃ before a after d t, source = before ++ a :: after
      ∧ drain before l = .ok d t ∧ Open t.state
      ∧ d.result = .ok ((offerings l before).countP Offering.isReturned)
      ∧ (let u := (drain (before ++ [a])).after l
        t.state.session.Halts (a.change? t.state.catalog) u.state.session
        ∧ u.state.session.phase = .stopped
        ∧ offerings l source = offerings l (before ++ [a])
        ∧ ∃ d' v, drain source l = .ok d' v ∧ u.state.session.Rests [] v.state.session
          ∧ d'.result = (do sourceResult u after (← stoppedResult d.emitted t a))) := by
  obtain ⟨before, a, after, d, t, rfl, hd, hbefore, hquiet, hopen', hthis⟩ :=
    drainFrom_halts (d := .start) hs hq hopen hstopped
  have hrun : drain before l = .ok d t := by
    have hend := (hbefore []).1
    rw [List.append_nil] at hend
    exact hend
  obtain ⟨d', u, hpasses, hresult⟩ := arrival_passes hquiet hopen' hd hthis
  have hafter : (drain (before ++ [a])).after l = u :=
    (Act.after_congr (hbefore [a]).1).trans hpasses.after
  have hu : u.state.session.phase = .stopped := hpasses.after ▸ hthis
  have hhalts := arrival_halts hquiet hopen' hthis
  rw [hpasses.after] at hhalts
  have hcounted : d.result = .ok ((offerings l before).countP Offering.isReturned) := by
    obtain ⟨d₁, t₁, hrun₁, hemitted, _⟩ := drainFrom_account before .start l
    cases hrun₁.symm.trans hrun
    rw [Drained.result_of_unfailed hd, hemitted,
      List.countP_congr fun o _ => by rw [isTaken_fate]]
    exact congrArg Except.ok (Nat.zero_add _)
  refine ⟨before, a, after, d, t, rfl, hrun, hopen', hcounted, ?_⟩
  dsimp only
  rw [hafter, (hbefore (a :: after)).2, (hbefore [a]).2, ← hresult]
  refine ⟨hhalts, hu, ?_⟩
  have hdrain : drain (before ++ a :: after) l = drainFrom d (a :: after) t :=
    (hbefore (a :: after)).1
  rw [hdrain]
  -- the drain ends with the change in progress, or goes on into the rest of the source at rest
  cases hpasses with
  | ends hfailed hpass hoffered =>
    obtain ⟨f, hf⟩ := Option.isSome_iff_exists.1 hfailed
    refine ⟨by rw [hoffered after], d', u, hpass after, .refl hu, ?_⟩
    rw [Drained.result_of_fault hf]
    rfl
  | goesOn hunfailed hpass hoffered =>
    obtain ⟨hnone, d'', v, hrest, hemitted, hfault, hrests⟩ := drainFrom_rests after hu hunfailed
    refine ⟨by rw [hoffered after, hnone, List.append_nil], d'', v, (hpass after).trans hrest,
      hrests, ?_⟩
    rw [Drained.result_of_unfailed hunfailed]
    show d''.result = sourceResult u after d'.emitted
    cases hsource : sourceFault? u after with
    | none =>
      rw [Drained.result_of_unfailed (hfault.trans hsource), hemitted]
      simp only [sourceResult, hsource]
    | some f =>
      rw [Drained.result_of_fault (hfault.trans hsource)]
      simp only [sourceResult, hsource]

/--
**Stopping is for good.**

A call of stop leaves the stream stopped, whoever makes it: the owner in a turn,
the source of a drain, or the sink while it has a change. Where a turn or an
arrival stopped a stream with a quiet sink, that was asked for and nothing else
happened, or the sink did it while it had one change, and then that change went
on. A drain in whose course that happens takes and offers nothing after that
arrival. It ends with the number of offers that returned until then, one more if
the change in progress is saved too; if that change fails, with the fault of its
sink or of its store, unless that is passed over; and if the source then fails of
its own, with that fault. So does every drain that goes on from some arrivals
after which the stream is stopped. A stopped stream rests, whatever its owner
does: every turn that would have it go on is refused, every drain takes and offers
nothing, and all that reaches the store are commits of positions that the stream
has come to.
-/
theorem stop_is_final {l : Logged (Feed σ)} (hq : l.state.session.Quiet) :
    (∀ t, StopsIn l t → ((turn t).after l).state.session.phase = .stopped
        ∧ ∀ d a, a.turn? = some t → ((drainFrom d [a]).after l).state.session.phase = .stopped)
      ∧ (Open l.state → (∀ t, (∀ source, t ≠ .request (.drain source)) →
            ((turn t).after l).state.session.phase = .stopped →
            l.state.session.Halts (t.change? l.state.catalog) ((turn t).after l).state.session)
          ∧ ∀ source, (∀ a ∈ source, a.Quiet) →
            ((drain source).after l).state.session.phase = .stopped →
            ∃ before a after d t, source = before ++ a :: after
              ∧ drain before l = .ok d t ∧ Open t.state
              ∧ d.result = .ok ((offerings l before).countP Offering.isReturned)
              ∧ (let u := (drain (before ++ [a])).after l
                t.state.session.Halts (a.change? t.state.catalog) u.state.session
                ∧ u.state.session.phase = .stopped
                ∧ offerings l source = offerings l (before ++ [a])
                ∧ ∃ d' v, drain source l = .ok d' v ∧ u.state.session.Rests [] v.state.session
                  ∧ d'.result = (do sourceResult u after (← stoppedResult d.emitted t a))))
      ∧ (∀ before after d t, drain before l = .ok d t → t.state.session.phase = .stopped →
          offerings l (before ++ after) = offerings l before
            ∧ ∃ d' u, drain (before ++ after) l = .ok d' u ∧ d'.emitted = d.emitted
              ∧ t.state.session.Rests [] u.state.session
              ∧ (d'.fault = d.fault ∨ d.fault = none ∧ d'.fault = sourceFault? t after))
      ∧ (l.state.session.phase = .stopped → ∀ ts,
          (let now := afterTurns l ts
          l.state.session.Rests (ts.flatMap (·.commits l.state.session.reached)) now.state.session
            ∧ (∀ t, t.GoesOn → ∃ what, turn t now = .error (.stopped what) now)
            ∧ ∀ source, offerings now source = [] ∧ ∃ d u, drain source now = .ok d u
              ∧ d.emitted = 0 ∧ d.fault = sourceFault? now source
              ∧ now.state.session.Rests [] u.state.session)) := by
  refine ⟨?_, fun hopen => ⟨fun t => turn_halts hq hopen, ?_⟩, ?_, ?_⟩
  · intro t h
    exact ⟨turn_stops h, fun d a ha => arrival_stops d ha h⟩
  · intro source hs hstopped
    exact drain_halts hq hopen hs hstopped
  · intro before after d t hbefore hstopped
    exact drain_ends after hbefore hstopped
  · intro hstopped ts now
    have hrests := rests_afterTurns ts hstopped
    exact ⟨hrests, fun t => goesOn_refused hrests.phase, fun source =>
      drainFrom_rests source hrests.phase rfl⟩

/-- The sink stops the stream while it has the change at 11 and then takes it. The drain leaves the
one at 12, and nothing but the commit of 11 comes to the store afterwards. -/
theorem stop_is_final_for_eleven :
    let entry (n : Sequence) : LogEntry :=
      ⟨"t", .mark (.kind .insert), .known n, none, some (Keyed.ofList [("id", .int n)])⟩
    let source : List Arrival := [.item (.entry (entry 11)), .item (.entry (entry 12))]
    let session : Session MemoryStore LogEntry :=
      { Session.waiting "s" MemoryStore.empty (some ⟨[.stop .accept], .accept⟩) with
        phase := .streaming, reached := .known 10 }
    let l : Logged (Feed MemoryStore) :=
      ⟨⟨⟨Keyed.ofList [(.text "t", ⟨.text "t", ["id"]⟩)]⟩, .start "cdc", .fail, none, session⟩, []⟩
    let ts : List Turn := [.direct (.commit (.known 11)), .direct (.commit (.known 12)), .request .start]
    l.state.session.Quiet ∧ Open l.state ∧ ∃ d u, drain source l = .ok d u ∧ d.result = .ok 1
      ∧ u.state.session.phase = .stopped
      ∧ u.state.session.Rests [.known 11] (afterTurns u ts).state.session
      ∧ (afterTurns u ts).state.session.reached = .known 11
      ∧ ∃ what, turn (.request (.offer (entry 12))) (afterTurns u ts) =
          .error (.stopped what) (afterTurns u ts) := by
  intro entry source session l ts
  have hq : l.state.session.Quiet := by
    intro k hk
    cases hk
    refine ⟨?_, trivial⟩
    intro r hr
    rw [List.mem_singleton.1 hr]
    trivial
  have hopen : Open l.state := by
    show Phase.streaming ≠ .stopped
    decide
  have hs : ∀ a ∈ source, a.Quiet := by
    intro a ha
    simp only [source, List.mem_cons, List.not_mem_nil, or_false] at ha
    rcases ha with rfl | rfl <;> trivial
  have hstopped : ((drain source).after l).state.session.phase = .stopped := by decide +kernel
  have hreached : ((drain source).after l).state.session.reached = .known 11 := by decide +kernel
  have hended : ((drain source).result l).toOption.map (·.result.toOption) = some (some 1) := by
    decide +kernel
  obtain ⟨_, hhalts, _, _⟩ := stop_is_final hq
  obtain ⟨_, _, _, _, _, _, _, _, _, _, _, _, d, u, hdrain, _⟩ := (hhalts hopen).2 source hs hstopped
  have hquiet : ((drain source).after l).state.session.Quiet :=
    (Lasting.quiet.drainFrom (h := []) hs hq hq).1
  rw [Act.after_of_ok hdrain] at hstopped hreached hquiet
  rw [Act.result_of_ok hdrain] at hended
  have hone : d.result = .ok 1 := by
    have hresult : d.result.toOption = some 1 := Option.some.inj hended
    cases hd : d.result with
    | ok n => rw [hd] at hresult; cases hresult; rfl
    | error f => rw [hd] at hresult; cases hresult
  obtain ⟨_, _, _, hrest⟩ := stop_is_final hquiet
  obtain ⟨hrests, hrefused, _⟩ := hrest hstopped ts
  have hcommits : ts.flatMap (·.commits u.state.session.reached) = [.known 11] := by
    rw [hreached]
    decide
  rw [hcommits] at hrests
  exact ⟨hq, hopen, d, u, hdrain, hone, hstopped, hrests,
    hrests.reached.trans hreached, hrefused (.request (.offer (entry 12))) trivial⟩

/-- If the change in progress is not saved, the drain does not end normally although the stream was
stopped. -/
theorem stopped_drain_fails :
    let entry : LogEntry :=
      ⟨"t", .mark (.kind .insert), .known 11, none, some (Keyed.ofList [("id", .int 11)])⟩
    let session : Session (Unreliable MemoryStore) LogEntry :=
      { Session.waiting "s" ⟨MemoryStore.empty, some .save⟩ (some (.always (.stop .accept))) with
        phase := .streaming, reached := .known 10 }
    let l : Logged (Feed (Unreliable MemoryStore)) :=
      ⟨⟨⟨Keyed.ofList [(.text "t", ⟨.text "t", ["id"]⟩)]⟩, .start "cdc", .fail, none, session⟩, []⟩
    ∃ d u, drain [.item (.entry entry)] l = .ok d u ∧ u.state.session.phase = .stopped
      ∧ ∀ n, d.result ≠ .ok n := by
  intro entry session l
  have hstopped : ((drain [.item (.entry entry)]).after l).state.session.phase = .stopped := by
    decide +kernel
  have hended : ((drain [.item (.entry entry)]).result l).toOption.map (·.result.toOption) =
      some none := by decide +kernel
  obtain ⟨d, u, hdrain, _⟩ := drainFrom_account [.item (.entry entry)] .start l
  have hdrain : drain [.item (.entry entry)] l = .ok d u := hdrain
  rw [Act.after_of_ok hdrain] at hstopped
  rw [Act.result_of_ok hdrain] at hended
  have hfailed : d.result.toOption = none := Option.some.inj hended
  refine ⟨d, u, hdrain, hstopped, fun n hn => ?_⟩
  rw [hn] at hfailed
  cases hfailed

end Feed

end Changefeed
