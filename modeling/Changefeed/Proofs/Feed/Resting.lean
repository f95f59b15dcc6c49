import Changefeed.Proofs.Feed.Requests

/-!
# Stopped streams

A stopped stream stays where it is, whatever its owner does, and nothing reaches
its sink any more: every call that would have it go on is refused, and a drain
takes and offers nothing (`drainFrom_rests`). Only positions that the stream has
come to can still be saved, by committing them (`rests_afterTurns`).
-/

namespace Changefeed

/-- What the owner of a feed may do: a request, or a call to the session that passes the feed by. -/
inductive Turn where
  | request (r : Feed.Request)
  | direct (k : Call)

namespace Turn

/-- A turn that would have the stream go on. -/
def GoesOn : Turn → Prop
  | request (.completeSnapshot _) | request (.beginStreaming _) | request (.offer _)
  | direct (.completeSnapshot _) | direct (.beginStreaming _) | direct (.advance _) => True
  | _ => False

/-- The position that a turn commits to a stream that has come to `p`, if it does. -/
def commits (p : Position) : Turn → List Position
  | direct (.commit q) => if q ≤ p then [q] else []
  | _ => []

end Turn

/-! ## Sessions at rest -/

/-- What a store can become when it is asked to save some positions for a stream, one after the
other, whichever of that fails. -/
inductive SavesTo {σ : Type} [CheckpointStore σ] (key : Text) : List Position → σ → σ → Prop
  | nil {a : σ} : SavesTo key [] a a
  | cons {p : Position} {ps : List Position} {a b : σ} (ns : List Notice)
      (h : SavesTo key ps ((CheckpointStore.save key p).after ⟨a, ns⟩).state b) :
      SavesTo key (p :: ps) a b

theorem SavesTo.append {σ : Type} [CheckpointStore σ] {key : Text} {ps qs : List Position}
    {a b c : σ} (h : SavesTo key ps a b) (h' : SavesTo key qs b c) : SavesTo key (ps ++ qs) a c := by
  induction h with
  | nil => exact h'
  | cons ns _ ih => exact .cons ns (ih h')

namespace Session

variable {σ α : Type} [CheckpointStore σ]

/-- Whether all that has happened to a stopped session is that its store was asked to save some
positions. A new sink may have come, which is handed nothing. -/
structure Rests (ps : List Position) (s t : Session σ α) : Prop where
  phase : t.phase = .stopped
  reached : t.reached = s.reached
  key : t.key = s.key
  trace : t.trace = s.trace ++ ps.map (.saving s.key)
  store : SavesTo s.key ps s.store t.store

theorem Rests.refl {s : Session σ α} (h : s.phase = .stopped) : s.Rests [] s :=
  ⟨h, rfl, rfl, (List.append_nil _).symm, .nil⟩

theorem Rests.trans {ps qs : List Position} {s t u : Session σ α} (h : s.Rests ps t)
    (h' : t.Rests qs u) : s.Rests (ps ++ qs) u where
  phase := h'.phase
  reached := h'.reached.trans h.reached
  key := h'.key.trans h.key
  trace := by rw [h'.trace, h.trace, h.key, List.map_append, List.append_assoc]
  store := h.store.append (h.key ▸ h'.store)

omit [CheckpointStore σ] in
theorem requireWaiting_of_stopped (t : Transition) {s : Logged (Session σ α)}
    (h : s.state.phase = .stopped) :
    requireWaiting t s = .error (.stopped (.transition t s.state.key)) s := by
  unfold requireWaiting
  rw [Act.state_bind, h]
  rfl

/-- A commit to a stopped session is at most a save of a position that was reached. -/
theorem commit_rests {p : Position} {s : Logged (Session σ α)} (h : s.state.phase = .stopped) :
    s.state.Rests ((Turn.direct (.commit p)).commits s.state.reached) ((commit p).after s).state := by
  have hcommits : (Turn.direct (.commit p)).commits s.state.reached =
      if p ≤ s.state.reached then [p] else [] := rfl
  rw [hcommits]
  rcases commit_cases p s with ⟨hlt, f, hf⟩ | ⟨hle, hsave⟩
  · rw [if_neg (not_le.2 hlt), Act.after_of_error hf]
    exact .refl h
  · rw [if_pos (not_lt.1 hle), Act.after_congr hsave, save_after]
    exact ⟨h, rfl, rfl, rfl, .cons s.notices .nil⟩

end Session

namespace Feed

variable {σ : Type} [CheckpointStore σ]

/-- What the owner does in a turn. -/
def turn : Turn → Act (Feed σ) Unit
  | .request r => request r
  | .direct k => direct k

/-- The feed after some turns, whichever of them fail. -/
def afterTurns (l : Logged (Feed σ)) (ts : List Turn) : Logged (Feed σ) :=
  ts.foldl (fun l t => (turn t).after l) l

/-- The fault that a source ends a drain with before it delivers another item, if it does. -/
def sourceFault? (l : Logged (Feed σ)) : List Arrival → Option Fault
  | [] | .item _ :: _ => none
  | .broken f :: _ | .unreadable f :: _ => some f
  | .aside a :: rest =>
    match letHappen a l with
    | .ok _ t => sourceFault? t rest
    | .error f _ => some f

/-! ## Calls to a stopped feed -/

omit [CheckpointStore σ] in
/-- What the session refuses without doing anything leaves the feed as it was. -/
theorem onSession_refused {α : Type} {act : Act (Session σ LogEntry) α} {l : Logged (Feed σ)}
    {f : Fault} (h : act ⟨l.state.session, l.notices⟩ = .error f ⟨l.state.session, l.notices⟩) :
    onSession act l = .error f l := by
  rw [onSession_run, h]

omit [CheckpointStore σ] in
theorem onSession_after {α : Type} (act : Act (Session σ LogEntry) α) (l : Logged (Feed σ)) :
    ((onSession act).after l).state.session = (act.after ⟨l.state.session, l.notices⟩).state := by
  unfold onSession
  rw [Act.after_within]

omit [CheckpointStore σ] in
/-- Stopping changes nothing but the phase. -/
theorem stop_after (l : Logged (Feed σ)) : (stop.after l).state = l.state.inPhase .stopped := by
  obtain ⟨ns, hs⟩ := stop_run l
  rw [Act.after_of_ok hs]

theorem stop_rests (l : Logged (Feed σ)) : l.state.session.Rests [] (stop.after l).state.session := by
  rw [stop_after]
  exact ⟨rfl, rfl, rfl, (List.append_nil _).symm, .nil⟩

section Stopped

variable {l : Logged (Feed σ)} (h : l.state.session.phase = .stopped)

include h

/-- A turn that would have the stream go on is refused. -/
theorem goesOn_refused {t : Turn} (ht : t.GoesOn) : ∃ what, turn t l = .error (.stopped what) l := by
  have hcomplete (p : Position) : ∃ what,
      onSession (Session.completeSnapshot p) l = .error (.stopped what) l :=
    ⟨_, onSession_refused (Act.bind_of_error (Session.requireWaiting_of_stopped _ h))⟩
  have hbegin (place : Option Position) : ∃ what,
      onSession (Session.beginStreaming place) l = .error (.stopped what) l :=
    ⟨_, onSession_refused (Act.bind_of_error (Session.requireWaiting_of_stopped _ h))⟩
  cases t with
  | request r =>
    cases r with
    | completeSnapshot p => exact (hcomplete p).imp fun _ hp => Act.bind_of_error hp
    | beginStreaming place => exact (hbegin place).imp fun _ hp => Act.bind_of_error hp
    | offer e => exact ⟨_, Act.bind_of_error (offer_stopped e h)⟩
    | _ => exact ht.elim
  | direct k =>
    cases k with
    | completeSnapshot p => exact hcomplete p
    | beginStreaming place => exact hbegin place
    | advance c =>
      have hrefusal : l.state.session.refusal? c =
          some (.stopped (.offer l.state.session.key)) := by
        unfold Session.refusal?
        rw [h]
      have hrun := advance_run c l
      rw [hrefusal] at hrun
      exact ⟨_, hrun⟩
    | _ => exact ht.elim

theorem start_stopped : start l = .ok .stopped l := by
  have hleft : l.state.session.phase ≠ .snapshotting := by rw [h]; simp
  unfold start
  rw [Act.state_bind, if_neg hleft, ← h]
  rfl

theorem letHappen_rests (a : Aside) : l.state.session.Rests [] ((letHappen a).after l).state.session := by
  cases a with
  | declare table columns =>
    unfold letHappen onCatalog
    rw [Act.after_within]
    exact .refl h
  | stop => exact stop_rests l
  | sink k => exact ⟨h, rfl, rfl, (List.append_nil _).symm, .nil⟩

end Stopped

/-- **A drain of a stopped feed** takes nothing and offers nothing, and no fault but one of the
source ends it. -/
theorem drainFrom_rests (source : List Arrival) : ∀ {d : Drained} {l : Logged (Feed σ)},
    l.state.session.phase = .stopped → d.fault = none → offerings l source = []
      ∧ ∃ d' t, drainFrom d source l = .ok d' t ∧ d'.emitted = d.emitted
        ∧ d'.fault = sourceFault? l source ∧ l.state.session.Rests [] t.state.session := by
  induction source with
  | nil => intro d l h hd; exact ⟨rfl, d, l, rfl, rfl, hd, .refl h⟩
  | cons a rest ih =>
    intro d l h hd
    cases a with
    | broken f => exact ⟨rfl, _, l, rfl, rfl, rfl, .refl h⟩
    | unreadable f => exact ⟨rfl, _, l, rfl, rfl, rfl, .refl h⟩
    | item i => exact ⟨offerings_stopped h i rest, _, _, drainFrom_stopped h d i rest, rfl, hd, .refl h⟩
    | aside a =>
      have hdrain := drainFrom_aside d a rest l
      have hrests := letHappen_rests h a
      rw [offerings, sourceFault?]
      cases hrun : letHappen a l with
      | error f t =>
        rw [hrun] at hdrain
        rw [Act.after_of_error hrun] at hrests
        exact ⟨rfl, _, t, hdrain, rfl, rfl, hrests⟩
      | ok u t =>
        rw [hrun] at hdrain
        rw [Act.after_of_ok hrun] at hrests
        obtain ⟨hnone, d', v, hrest, hemitted, hfault, hlater⟩ := ih hrests.phase hd
        exact ⟨hnone, d', v, hdrain.trans hrest, hemitted, hfault, hrests.trans hlater⟩

/-- What a turn leaves of a stopped feed: at most a position is committed. -/
theorem turn_rests {l : Logged (Feed σ)} (h : l.state.session.phase = .stopped) (t : Turn) :
    l.state.session.Rests (t.commits l.state.session.reached) ((turn t).after l).state.session := by
  have hrefused (ht : t.GoesOn) : l.state.session.Rests [] ((turn t).after l).state.session := by
    obtain ⟨what, hr⟩ := goesOn_refused h ht
    rw [Act.after_of_error hr]
    exact .refl h
  cases t with
  | request r =>
    cases r with
    | declare table columns => exact letHappen_rests h (.declare table columns)
    | unregister table => exact .refl h
    | start =>
      have hstart : (turn (.request .start)).after l = l :=
        (Act.after_discard ..).trans (Act.after_of_ok (start_stopped h))
      rw [hstart]
      exact .refl h
    | beginStreaming place => exact hrefused trivial
    | completeSnapshot p => exact hrefused trivial
    | offer e => exact hrefused trivial
    | drain source =>
      obtain ⟨_, d, u, hdrain, _, _, hrests⟩ := drainFrom_rests source (d := .start) h rfl
      have hafter : (turn (.request (.drain source))).after l = u :=
        (Act.after_discard ..).trans (Act.after_of_ok hdrain)
      rw [hafter]
      exact hrests
    | stop => exact stop_rests l
  | direct k =>
    cases k with
    | completeSnapshot p => exact hrefused trivial
    | beginStreaming place => exact hrefused trivial
    | advance c => exact hrefused trivial
    | commit p =>
      have hafter : ((turn (.direct (.commit p))).after l).state.session =
          ((Session.commit p).after ⟨l.state.session, l.notices⟩).state := onSession_after ..
      rw [hafter]
      exact Session.commit_rests (s := ⟨l.state.session, l.notices⟩) h
    | stop => exact stop_rests l

/-- **A stopped feed rests**, whatever its owner does: of all turns only the commits of positions
that the stream has reached come to the store. -/
theorem rests_afterTurns (ts : List Turn) : ∀ {l : Logged (Feed σ)},
    l.state.session.phase = .stopped → l.state.session.Rests
      (ts.flatMap (·.commits l.state.session.reached)) (afterTurns l ts).state.session := by
  induction ts with
  | nil => intro l h; exact .refl h
  | cons t rest ih =>
    intro l h
    have hthis := turn_rests h t
    have hrest := ih (l := (turn t).after l) hthis.phase
    -- the turn did not move the stream, so later commits are judged by the same position
    rw [hthis.reached] at hrest
    exact hthis.trans hrest

end Feed

end Changefeed
