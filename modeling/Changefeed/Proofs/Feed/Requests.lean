import Changefeed.Proofs.Feed.Draining
import Changefeed.Proofs.Feed.Endings

/-!
# Histories of a feed

Whoever has a feed makes requests of it, and a drain among them makes many offers
of its own. The history of some requests is all that was offered in their course,
each entry with the feed as it was when it came (`history`).

A property of the history so far and of the feed is *lasting* if it survives each
of the few things that requests are made of: an offer, which adds itself to the
history, and the others, which do not. What is lasting survives every run of
requests (`Lasting.requests`).
-/

namespace Changefeed

/-! ## Requests -/

/-- A request to a feed by its owner. -/
inductive Feed.Request where
  /-- A table is declared. -/
  | declare (table columns : Value)
  /-- A table is taken out of the catalog. -/
  | unregister (table : Text)
  | start
  | beginStreaming (place : Option Position)
  | completeSnapshot (p : Position)
  | offer (e : LogEntry)
  | drain (source : List Arrival)
  | stop

/-- Whether a new sink is quiet, if something aside brings one. -/
def Aside.Quiet : Aside → Prop
  | .sink k => k.Quiet
  | .declare .. | .stop => True

/-- Whether all that an arrival brings is quiet. -/
def Arrival.Quiet : Arrival → Prop
  | .aside a => a.Quiet
  | .item _ | .unreadable _ | .broken _ => True

/-- Whether all sinks that a request brings are quiet. -/
def Feed.Request.Quiet : Feed.Request → Prop
  | .drain source => ∀ a ∈ source, a.Quiet
  | _ => True

namespace Feed

variable {σ : Type} [CheckpointStore σ]

/-- Does what is requested. -/
def request : Request → Act (Feed σ) Unit
  | .declare table columns => onCatalog (Catalog.declare table columns)
  | .unregister table => onCatalog (.update fun c => c.unregister table)
  | .start => discard start
  | .beginStreaming place => beginStreaming place
  | .completeSnapshot p => completeSnapshot p
  | .offer e => discard (offer e)
  | .drain source => discard (drain source)
  | .stop => stop

/-- What a call to the session of a feed does that passes the feed by. -/
def direct : Call → Act (Feed σ) Unit
  | .completeSnapshot p => onSession (Session.completeSnapshot p)
  | .beginStreaming place => onSession (Session.beginStreaming place)
  | .advance c => advance c
  | .commit p => onSession (Session.commit p)
  | .stop => onSession Session.stop

/-- The feed after some requests, whichever of them fail. -/
def afterRequests (l : Logged (Feed σ)) (rs : List Request) : Logged (Feed σ) :=
  rs.foldl (fun l r => (request r).after l) l

/-- What a request offers to a feed that is not stopped. -/
def requestOfferings (l : Logged (Feed σ)) : Request → List (Offering σ)
  | .offer e => if l.state.session.isStopped then [] else [⟨l, e⟩]
  | .drain source => offerings l source
  | _ => []

/-- All that some requests offer to a feed that is not stopped, oldest first. -/
def history (l : Logged (Feed σ)) : List Request → List (Offering σ)
  | [] => []
  | r :: rest => requestOfferings l r ++ history ((request r).after l) rest

/-- How far an offering comes. -/
def Offering.stage (o : Offering σ) : Stage := offerStage o.entry o.feed

/-- Whether the sink took the change of an offering. -/
def Offering.isTaken (o : Offering σ) : Bool := o.stage = .taken || o.stage = .saved

/-- Whether the change of an offering was saved. -/
def Offering.isSaved (o : Offering σ) : Bool := o.stage = .saved

/-! ## Opening -/

theorem openSession_fresh {S : Type} {o : Options} {store : σ} {sink : Sink LogEntry}
    {l t : Logged S} {s : Session σ LogEntry} (h : openSession o store sink l = .ok s t) :
    s.trace = [] ∧ s.sink = some sink := by
  have hopened : ∀ {await : Bool},
      Session.openOn o.serverName store (some sink) await l = .ok s t →
        s.trace = [] ∧ s.sink = some sink := by
    intro await h
    rcases Session.openOn_cases h with ⟨_, rfl⟩ | ⟨_, p, _, rfl⟩ <;> exact ⟨rfl, rfl⟩
  unfold openSession at h
  cases hcapture : o.captureSnapshot with
  | true =>
    rw [hcapture] at h
    exact hopened h
  | false =>
    cases hresume : o.resume with
    | none =>
      rw [hcapture, hresume] at h
      exact hopened h
    | some p =>
      rw [hcapture, hresume] at h
      cases h
      exact ⟨rfl, rfl⟩

/-- A feed that is opened has counted nothing and recorded nothing, and its gauge shows where its
stream is. -/
theorem openOn_fresh {S : Type} {o : Options} {store : σ} {sink : Sink LogEntry} {l t : Logged S}
    {f : Feed σ} (h : openOn o store sink l = .ok f t) :
    f.meters = { Meters.start o.scope with position := f.session.reached }
      ∧ f.session.trace = [] ∧ f.session.sink = some sink := by
  unfold openOn at h
  cases hpolicy : OrderPolicy.ofText? o.policy with
  | none =>
    rw [hpolicy] at h
    cases h
  | some policy =>
    rw [hpolicy] at h
    obtain ⟨s, u, hs, hf⟩ := Act.bind_eq_ok.1 h
    cases hf
    exact ⟨rfl, openSession_fresh hs⟩

theorem openOn_quiet {S : Type} {o : Options} {store : σ} {sink : Sink LogEntry} {l t : Logged S}
    {f : Feed σ} (h : openOn o store sink l = .ok f t) (hsink : sink.Quiet) : f.session.Quiet := by
  intro k hk
  rw [(openOn_fresh h).2.2] at hk
  cases hk
  exact hsink

/-! ## Entering streaming -/

/-- Completing the snapshot sets the gauge along with the session. -/
theorem completeSnapshot_cases (p : Position) (l : Logged (Feed σ)) :
    (∃ f, completeSnapshot p l = .error f l)
      ∨ (l.state.session.phase = .snapshotting ∧ ∃ f u,
          CheckpointStore.save l.state.session.key p ⟨l.state.session.store, l.notices⟩ = .error f u
          ∧ completeSnapshot p l = .error f ⟨{ l.state with session := { l.state.session with
              trace := l.state.session.trace ++ [.saving l.state.session.key p]
              store := u.state } }, u.notices⟩)
      ∨ (l.state.session.phase = .snapshotting ∧ ∃ u ns, completeSnapshot p l =
          .ok () ⟨({ l.state with session := { l.state.session with
              reached := p, phase := .streaming
              trace := l.state.session.trace ++ [.saving l.state.session.key p]
              store := u } } : Feed σ).showing p, ns⟩) := by
  by_cases hw : l.state.session.phase = .snapshotting
  · have hrequire := Session.requireWaiting_of_waiting .completeSnapshot
      (s := ⟨l.state.session, l.notices⟩) hw
    have hsave := Session.save_run p ⟨l.state.session, l.notices⟩
    rw [Act.within] at hsave
    dsimp only at hsave
    cases hs : CheckpointStore.save l.state.session.key p ⟨l.state.session.store, l.notices⟩ with
    | error f u =>
      rw [hs] at hsave
      have hsession : Session.completeSnapshot p ⟨l.state.session, l.notices⟩ = .error f _ :=
        (Act.bind_of_ok hrequire).trans (Act.bind_of_error hsave)
      refine .inr (.inl ⟨hw, f, u, rfl, Act.bind_of_error ?_⟩)
      rw [onSession_run, hsession]
    | ok a u =>
      rw [hs] at hsave
      obtain ⟨ns, henter⟩ := Session.enterStreaming_run p .snapshot
        ⟨{ l.state.session with
            trace := l.state.session.trace ++ [.saving l.state.session.key p]
            store := u.state }, u.notices⟩
      have hsession : Session.completeSnapshot p ⟨l.state.session, l.notices⟩ = .ok () _ :=
        (Act.bind_of_ok hrequire).trans ((Act.bind_of_ok hsave).trans henter)
      refine .inr (.inr ⟨hw, u.state, ns, ?_⟩)
      have hfeed := onSession_run (Session.completeSnapshot p) l
      rw [hsession] at hfeed
      exact Act.bind_of_ok hfeed
  · exact .inl (completeSnapshot_of_left p hw)

/-- Beginning to stream without a snapshot sets the gauge along with the session, too. -/
theorem beginStreaming_cases (place : Option Position) (l : Logged (Feed σ)) :
    (∃ f, beginStreaming place l = .error f l)
      ∨ (l.state.session.phase = .snapshotting ∧ ∃ p ns, beginStreaming place l =
          .ok () ⟨({ l.state with session := { l.state.session with
              reached := p, phase := .streaming } } : Feed σ).showing p, ns⟩) := by
  have hrun := onSession_run (Session.beginStreaming place) l
  rcases Session.beginStreaming_cases place ⟨l.state.session, l.notices⟩ with
    ⟨f, hf⟩ | ⟨hw, p, ns, _, hok⟩
  · rw [hf] at hrun
    exact .inl ⟨f, Act.bind_of_error hrun⟩
  · rw [hok] at hrun
    exact .inr ⟨hw, p, ns, Act.bind_of_ok hrun⟩

/-- Starting is beginning to stream somewhere, or nothing. -/
theorem start_after (l : Logged (Feed σ)) :
    (start.after l).state = l.state
      ∨ ∃ p, (start.after l).state = ((beginStreaming (some p)).after l).state := by
  unfold start
  rw [Act.after_congr (Act.state_bind _ l)]
  split
  · cases hp : l.state.resumption with
    | error f => exact .inl rfl
    | ok p =>
      rw [Act.after_bind_of_ok (Act.ofExcept_eq_ok.2 ⟨rfl, rfl⟩)]
      split
      · right
        refine ⟨p, ?_⟩
        cases hbegin : beginStreaming (some p) l with
        | ok a t => rw [Act.after_bind_of_ok hbegin, Act.after_of_ok hbegin]; rfl
        | error f t => rw [Act.after_bind_of_error hbegin, Act.after_of_error hbegin]
      · exact .inl rfl
  · exact .inl rfl

/-! ## What lasts -/

/-- A property of all that was offered so far, and of the feed, that survives every single thing
that requests are made of. -/
structure Lasting (P : List (Offering σ) → Feed σ → Prop) : Prop where
  /-- The catalog changes. -/
  catalog : ∀ {h f} catalog, P h f → P h { f with catalog }
  /-- A new sink comes. -/
  sink : ∀ {h f k}, k.Quiet → P h f → P h { f with session := { f.session with sink := some k } }
  stop : ∀ {h f}, P h f → P h (f.inPhase .stopped)
  completeSnapshot : ∀ {h l} p, P h l.state → P h ((completeSnapshot p).after l).state
  beginStreaming : ∀ {h l} place, P h l.state → P h ((beginStreaming place).after l).state
  /-- An entry is offered, and goes into the history. -/
  offer : ∀ {h} {l : Logged (Feed σ)} e, l.state.session.Quiet → l.state.session.phase ≠ .stopped →
    P h l.state → P (h ++ [⟨l, e⟩]) ((offer e).after l).state

/-- What taking an item leaves is what completing the snapshot leaves, or offering the entry. -/
theorem take_snapshot_after (p : Position) (l : Logged (Feed σ)) :
    (take (.snapshot p)).after l = (completeSnapshot p).after l :=
  Act.after_bind_pure (completeSnapshot p) (fun _ => 0) l

theorem take_entry_after (e : LogEntry) (l : Logged (Feed σ)) :
    ((take (.entry e)).after l).state = ((offer e).after l).state := by
  unfold Act.after
  rw [take_entry_run]
  cases offer e l with
  | ok c t => rfl
  | error f t =>
    dsimp only
    by_cases hskip : t.state.skips f = true
    · rw [if_pos hskip]
    · rw [if_neg hskip]

theorem drainFrom_aside (d : Drained) (a : Aside) (rest : List Arrival) (l : Logged (Feed σ)) :
    drainFrom d (.aside a :: rest) l = match letHappen a l with
      | .ok _ t => drainFrom d rest t
      | .error f t => .ok (d.fail f) t := by
  rw [drainFrom, Act.outcome_bind]
  cases letHappen a l <;> rfl

/-- A drain of a stopped feed takes no item. -/
theorem drainFrom_stopped {l : Logged (Feed σ)} (h : l.state.session.phase = .stopped) (d : Drained)
    (i : Item) (rest : List Arrival) : drainFrom d (.item i :: rest) l =
      .ok d.pull ⟨l.state, l.notices ++ [.leaving l.state.session.key]⟩ := by
  have hstopped : l.state.session.isStopped = true := decide_eq_true h
  rw [drainFrom, Act.state_bind, if_pos hstopped]
  rfl

theorem offerings_stopped {l : Logged (Feed σ)} (h : l.state.session.phase = .stopped) (i : Item)
    (rest : List Arrival) : offerings l (.item i :: rest) = [] := by
  have hstopped : l.state.session.isStopped = true := decide_eq_true h
  rw [offerings, if_pos hstopped]

namespace Lasting

variable {P : List (Offering σ) → Feed σ → Prop} {h : List (Offering σ)} {l : Logged (Feed σ)}

/-- That the sink is quiet lasts. -/
theorem quiet : Lasting fun (_ : List (Offering σ)) (f : Feed σ) => f.session.Quiet where
  catalog _ hq := hq
  sink hk _ k' h' := by
    cases h'
    exact hk
  stop hq := hq
  completeSnapshot := by
    intro _ l p hq
    rcases completeSnapshot_cases p l with ⟨f, hf⟩ | ⟨_, f, u, _, hf⟩ | ⟨_, u, ns, hok⟩
    · rw [Act.after_of_error hf]
      exact hq
    · rw [Act.after_of_error hf]
      exact hq
    · rw [Act.after_of_ok hok]
      exact hq
  beginStreaming := by
    intro _ l place hq
    rcases beginStreaming_cases place l with ⟨f, hf⟩ | ⟨_, p, ns, hok⟩
    · rw [Act.after_of_error hf]
      exact hq
    · rw [Act.after_of_ok hok]
      exact hq
  offer := by
    intro _ l e hq hopen _
    rcases offer_ending hq hopen e with ⟨_, _, hr⟩ | ⟨_, _, _, hr⟩ | ⟨_, _, _, _, hr⟩
      | ⟨_, _, _, _, _, hr⟩ | ⟨_, _, _, _, _, hr⟩
    · rw [Act.after_of_error hr]
      exact hq
    · rw [Act.after_of_error hr]
      exact hq
    · rw [Act.after_of_error hr]
      exact hq.of_advanced rfl
    · rw [Act.after_of_error hr]
      exact hq.of_advanced rfl
    · rw [Act.after_of_ok hr]
      exact hq.of_advanced rfl

/-- What is lasting survives together with the quiet of the sink. -/
theorem and_quiet (hP : Lasting P) :
    Lasting fun (h : List (Offering σ)) (f : Feed σ) => f.session.Quiet ∧ P h f where
  catalog c hp := ⟨quiet.catalog (h := []) c hp.1, hP.catalog c hp.2⟩
  sink hk hp := ⟨quiet.sink (h := []) hk hp.1, hP.sink hk hp.2⟩
  stop hp := ⟨quiet.stop (h := []) hp.1, hP.stop hp.2⟩
  completeSnapshot p hp := ⟨quiet.completeSnapshot (h := []) p hp.1, hP.completeSnapshot p hp.2⟩
  beginStreaming p hp := ⟨quiet.beginStreaming (h := []) p hp.1, hP.beginStreaming p hp.2⟩
  offer e hq hopen hp := ⟨quiet.offer (h := []) e hq hopen hp.1, hP.offer e hq hopen hp.2⟩

/-! ## What a run of requests keeps -/

section Run

variable (hP : Lasting P)

include hP

theorem letHappen {a : Aside} (ha : a.Quiet) (hp : P h l.state) :
    P h ((letHappen a).after l).state := by
  cases a with
  | declare table columns =>
    unfold Feed.letHappen onCatalog
    rw [Act.after_within]
    exact hP.catalog _ hp
  | stop =>
    obtain ⟨ns, hs⟩ := stop_run l
    have hrun : Feed.letHappen .stop l = .ok () ⟨l.state.inPhase .stopped, ns⟩ := hs
    rw [Act.after_of_ok hrun]
    exact hP.stop hp
  | sink k => exact hP.sink ha hp

theorem take (i : Item) (hq : l.state.session.Quiet) (hopen : l.state.session.phase ≠ .stopped)
    (hp : P h l.state) : P (h ++ offered l i) ((take i).after l).state := by
  cases i with
  | snapshot p =>
    rw [take_snapshot_after]
    unfold offered
    rw [List.append_nil]
    exact hP.completeSnapshot p hp
  | entry e =>
    rw [take_entry_after]
    exact hP.offer e hq hopen hp

theorem start (hp : P h l.state) : P h (Feed.start.after l).state := by
  rcases start_after l with hsame | ⟨p, hbegun⟩
  · rw [hsame]
    exact hp
  · rw [hbegun]
    exact hP.beginStreaming (some p) hp

end Run

/-- What is lasting survives a drain, and with it what the drain offers goes into the history. -/
theorem drainFrom (hP : Lasting P) {source : List Arrival} :
    ∀ {d : Drained} {h : List (Offering σ)} {l : Logged (Feed σ)}, (∀ a ∈ source, a.Quiet) →
      l.state.session.Quiet → P h l.state →
      ((drainFrom d source).after l).state.session.Quiet
        ∧ P (h ++ offerings l source) ((drainFrom d source).after l).state := by
  -- what an arrival offers comes before what the rest of the source does
  induction source with
  | nil =>
    intro d h l _ hq hp
    exact ⟨hq, by rw [offerings, List.append_nil]; exact hp⟩
  | cons a rest ih =>
    intro d h l hs hq hp
    have hrest : ∀ a ∈ rest, a.Quiet := fun a ha => hs a (List.mem_cons_of_mem _ ha)
    cases a with
    | broken f => exact ⟨hq, by rw [offerings, List.append_nil]; exact hp⟩
    | unreadable f => exact ⟨hq, by rw [offerings, List.append_nil]; exact hp⟩
    | aside a =>
      have ha : a.Quiet := hs _ List.mem_cons_self
      have hafter := hP.and_quiet.letHappen ha ⟨hq, hp⟩
      have hdrain := drainFrom_aside d a rest l
      rw [offerings]
      cases hrun : Feed.letHappen a l with
      | error f t =>
        rw [hrun] at hdrain
        rw [Act.after_of_error hrun] at hafter
        rw [Act.after_of_ok hdrain, List.append_nil]
        exact hafter
      | ok u t =>
        rw [hrun] at hdrain
        rw [Act.after_of_ok hrun] at hafter
        rw [Act.after_congr hdrain]
        exact ih hrest hafter.1 hafter.2
    | item i =>
      by_cases hstopped : l.state.session.phase = .stopped
      · rw [Act.after_of_ok (drainFrom_stopped hstopped d i rest), offerings_stopped hstopped,
          List.append_nil]
        exact ⟨hq, hp⟩
      have hafter := hP.and_quiet.take i hq hstopped ⟨hq, hp⟩
      have hdrain := drainFrom_item hstopped d i rest
      rw [offerings_item hstopped]
      cases hrun : Feed.take i l with
      | error f t =>
        rw [hrun] at hdrain
        rw [Act.after_of_error hrun] at hafter
        rw [Act.after_of_ok hdrain, List.append_nil]
        exact hafter
      | ok n t =>
        rw [hrun] at hdrain
        rw [Act.after_of_ok hrun] at hafter
        rw [Act.after_congr hdrain, ← List.append_assoc]
        exact ih hrest hafter.1 hafter.2

/-- What is lasting survives a request, and with it what the request offers goes into the history. -/
theorem request (hP : Lasting P) {r : Request} (hr : r.Quiet) (hq : l.state.session.Quiet)
    (hp : P h l.state) : ((Feed.request r).after l).state.session.Quiet
      ∧ P (h ++ requestOfferings l r) ((Feed.request r).after l).state := by
  have hboth : l.state.session.Quiet ∧ P h l.state := ⟨hq, hp⟩
  have h := hP.and_quiet
  cases r with
  | declare table columns =>
    unfold Feed.request requestOfferings onCatalog
    rw [Act.after_within, List.append_nil]
    exact h.catalog _ hboth
  | unregister table =>
    unfold requestOfferings
    rw [List.append_nil]
    exact h.catalog _ hboth
  | start =>
    unfold Feed.request requestOfferings
    rw [Act.after_discard, List.append_nil]
    exact h.start hboth
  | beginStreaming place =>
    unfold requestOfferings
    rw [List.append_nil]
    exact h.beginStreaming place hboth
  | completeSnapshot p =>
    unfold requestOfferings
    rw [List.append_nil]
    exact h.completeSnapshot p hboth
  | offer e =>
    unfold Feed.request
    rw [Act.after_discard, requestOfferings]
    by_cases hstopped : l.state.session.phase = .stopped
    · have hnone : l.state.session.isStopped = true := decide_eq_true hstopped
      rw [if_pos hnone, List.append_nil, Act.after_of_error (offer_stopped e hstopped)]
      exact hboth
    · have hnot : ¬l.state.session.isStopped = true := fun h => hstopped (of_decide_eq_true h)
      rw [if_neg hnot]
      exact h.offer e hq hstopped hboth
  | drain source =>
    unfold Feed.request requestOfferings
    rw [Act.after_discard]
    exact hP.drainFrom hr hq hp
  | stop =>
    obtain ⟨ns, hs⟩ := stop_run l
    have hrun : Feed.request .stop l = .ok () ⟨l.state.inPhase .stopped, ns⟩ := hs
    unfold requestOfferings
    rw [Act.after_of_ok hrun, List.append_nil]
    exact h.stop hboth

/-- **What is lasting survives every run of requests.** -/
theorem requests (hP : Lasting P) {rs : List Request} :
    ∀ {h : List (Offering σ)} {l : Logged (Feed σ)}, (∀ r ∈ rs, r.Quiet) → l.state.session.Quiet →
      P h l.state → (afterRequests l rs).state.session.Quiet
        ∧ P (h ++ history l rs) (afterRequests l rs).state := by
  induction rs with
  | nil =>
    intro h l _ hq hp
    rw [history, List.append_nil]
    exact ⟨hq, hp⟩
  | cons r rest ih =>
    intro h l hr hq hp
    have hafter := hP.request (hr r List.mem_cons_self) hq hp
    rw [history, ← List.append_assoc]
    exact ih (fun r hmem => hr r (List.mem_cons_of_mem _ hmem)) hafter.1 hafter.2

end Lasting

end Feed

end Changefeed
