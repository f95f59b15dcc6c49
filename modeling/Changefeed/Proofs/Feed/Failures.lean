import Changefeed.Proofs.Checkpoint.Calls
import Changefeed.Proofs.Feed.Requests
import Changefeed.Proofs.Stream.Failures

/-!
# What failed requests leave of a feed

A feed adds to its session a catalog, meters and a policy, and none of these
moves the session. So what holds of failing calls to a session holds of failing
requests to a feed (`request_fails`), and an entry whose offer fails is forgotten
like a change (`offer_forgotten`), whether no change came of it, the stream
refused it or the sink did.
-/

namespace Changefeed.Feed

variable {σ : Type} [CheckpointStore σ]

/-! ## Taking a change with a silent sink -/

/-- **What becomes of a change** that a feed with a silent sink is to take. -/
theorem advance_silent {l : Logged (Feed σ)} (hs : l.state.session.Silent) (c : Change) :
    advance c l = match l.state.session.refusal? c with
      | some f => .error f l
      | none =>
        match l.state.session.reaction.fault? with
        | some f => .error f ⟨{ l.state with
            session := l.state.session.reacted c l.state.session.phase }, l.notices⟩
        | none =>
          match CheckpointStore.save l.state.session.key c.position
              ⟨l.state.session.store, l.notices⟩ with
          | .ok _ u => .ok () ⟨{ l.state with
              meters := l.state.meters.add 1 .published
              session := l.state.session.settled c l.state.session.phase u.state }, u.notices⟩
          | .error f u => .error f ⟨{ l.state with
              meters := l.state.meters.add 1 .published
              session := l.state.session.settled c l.state.session.phase u.state }, u.notices⟩ := by
  have hreacting : reacting c l = match l.state.session.reaction.fault? with
      | some f => .error f ⟨l.state.handed c, l.notices⟩
      | none => .ok () ⟨l.state.handed c, l.notices⟩ :=
    Reaction.carryOut_silent callbacks hs.reaction c _
  have hhanded : l.state.handed c = { l.state with
      session := l.state.session.reacted c l.state.session.phase } := rfl
  rw [advance_run, hreacting, hhanded]
  cases l.state.session.refusal? c with
  | some f => rfl
  | none =>
    dsimp only
    cases l.state.session.reaction.fault? with
    | some f => rfl
    | none => exact settling_run c l.state l.state.session.phase l.notices

/-- Whether all that has become of a feed, apart from its meters, is that it failed to take or to
save a change. -/
inductive Failed (l : Logged (Feed σ)) (c : Change) : Logged (Feed σ) → Prop
  /-- The stream refused the change. -/
  | refused (m : Meters) : Failed l c ⟨{ l.state with meters := m }, l.notices⟩
  /-- The sink refused it. -/
  | declined (m : Meters) : Failed l c ⟨{ l.state with
      meters := m
      session := l.state.session.reacted c l.state.session.phase }, l.notices⟩
  /-- The store failed to save it. -/
  | unsaved (m : Meters) {f : Fault} {u : Logged σ}
      (save : CheckpointStore.save l.state.session.key c.position
        ⟨l.state.session.store, l.notices⟩ = .error f u) :
      Failed l c ⟨{ l.state with
        meters := m
        session := l.state.session.settled c l.state.session.phase u.state }, u.notices⟩

/-- Whatever its meters show, a feed fails to take a change in one of three ways. -/
theorem advance_fails {l t : Logged (Feed σ)} {m : Meters} (hs : l.state.session.Silent) {c : Change}
    {f : Fault} (h : advance c ⟨{ l.state with meters := m }, l.notices⟩ = .error f t) :
    Failed l c t := by
  rw [advance_silent (l := ⟨{ l.state with meters := m }, l.notices⟩) hs] at h
  dsimp only at h
  cases hr : l.state.session.refusal? c with
  | some g =>
    rw [hr] at h
    cases h
    exact .refused m
  | none =>
    rw [hr] at h
    dsimp only at h
    cases hf : l.state.session.reaction.fault? with
    | some g =>
      rw [hf] at h
      cases h
      exact .declined m
    | none =>
      rw [hf] at h
      dsimp only at h
      cases hsave : CheckpointStore.save l.state.session.key c.position
          ⟨l.state.session.store, l.notices⟩ with
      | ok a u => rw [hsave] at h; cases h
      | error g u =>
        rw [hsave] at h
        cases h
        exact .unsaved _ hsave

theorem Failed.withMeters {l t : Logged (Feed σ)} {c : Change} (h : Failed l c t) (m : Meters) :
    Failed l c ⟨{ t.state with meters := m }, t.notices⟩ := by
  cases h with
  | refused => exact .refused m
  | declined => exact .declined m
  | unsaved _ hsave => exact .unsaved m hsave

/-- An entry whose offer fails gives no change, or one that the feed fails to take or to save. -/
theorem offer_fails {l t : Logged (Feed σ)} (hs : l.state.session.Silent) {e : LogEntry} {f : Fault}
    (h : offer e l = .error f t) :
    (∃ m, t = ⟨{ l.state with meters := m }, l.notices⟩)
      ∨ ∃ c, e.assemble l.state.catalog = .ok c ∧ Failed l c t := by
  by_cases hopen : l.state.session.phase = .stopped
  · rw [offer_stopped e hopen] at h
    cases h
    exact .inl ⟨l.state.meters, rfl⟩
  rw [offer_eq e hopen] at h
  cases hc : e.assemble l.state.catalog with
  | error g =>
    rw [hc] at h
    cases h
    exact .inl ⟨_, rfl⟩
  | ok c =>
    rw [hc] at h
    dsimp only at h
    cases hrun : advance c ⟨{ l.state with meters := l.state.meters.add 1 .assembled }, l.notices⟩ with
    | ok a v => rw [hrun] at h; cases h
    | error g u =>
      rw [hrun] at h
      cases h
      exact .inr ⟨c, rfl, (advance_fails hs hrun).withMeters _⟩

/-! ## Failing requests -/

/-- The position that a request has the store save, if it comes to that. A drain does not fail itself,
whatever ends it. -/
def Request.saves? : Request → Option Position
  | .completeSnapshot p => some p
  | .offer e => some e.position
  | _ => none

/-- Whether the store, if it now fails to save a position for the stream of a feed, holds for it
afterwards what it held before. -/
def FailsCleanly (p : Position) (l : Logged (Feed σ)) : Prop :=
  Session.FailsCleanly p ⟨l.state.session, l.notices⟩

theorem Failed.stands {l t : Logged (Feed σ)} {c : Change} (hclean : FailsCleanly c.position l)
    (h : Failed l c t) :
    l.state.session.Unmoved t.state.session ∨ l.state.session.TookOnly c t.state.session := by
  cases h with
  | refused => exact .inl (.refl _)
  | declined => exact .inl (Session.unmoved_reacted _ c)
  | unsaved _ hsave => exact .inr (Session.tookOnly_settled (hclean _ _ hsave))

theorem completeSnapshot_fails {p : Position} {l t : Logged (Feed σ)} {f : Fault}
    (hclean : FailsCleanly p l) (h : completeSnapshot p l = .error f t) :
    l.state.session.Unmoved t.state.session := by
  rcases Act.bind_eq_error.1 h with hsession | ⟨_, _, _, hset⟩
  · obtain ⟨u, hrun, rfl⟩ := onSession_eq_error hsession
    exact Session.completeSnapshot_fails hclean hrun
  · cases hset

theorem beginStreaming_fails {place : Option Position} {l t : Logged (Feed σ)} {f : Fault}
    (h : beginStreaming place l = .error f t) : t = l := by
  rcases beginStreaming_cases place l with ⟨g, hg⟩ | ⟨_, _, _, hok⟩
  · cases hg.symm.trans h
    rfl
  · cases hok.symm.trans h

theorem start_fails {l t : Logged (Feed σ)} {f : Fault} (h : start l = .error f t) : t = l := by
  unfold start at h
  rw [Act.state_bind] at h
  split at h
  · rcases Act.bind_eq_error.1 h with hp | ⟨p, u, hp, hrest⟩
    · exact (Act.ofExcept_eq_error.1 hp).2
    · obtain ⟨_, rfl⟩ := Act.ofExcept_eq_ok.1 hp
      split at hrest
      · rcases Act.bind_eq_error.1 hrest with hbegin | ⟨_, _, _, hphase⟩
        · exact beginStreaming_fails hbegin
        · cases hphase
      · cases hrest
  · cases h

/-- **A request that fails** leaves the stream where it stood, unless it offered an entry whose change
the sink took. -/
theorem request_fails {l t : Logged (Feed σ)} (hs : l.state.session.Silent) {r : Request} {f : Fault}
    (hclean : ∀ p, r.saves? = some p → FailsCleanly p l) (h : request r l = .error f t) :
    l.state.session.Unmoved t.state.session
      ∨ ∃ e c, r = .offer e ∧ e.assemble l.state.catalog = .ok c
        ∧ l.state.session.TookOnly c t.state.session := by
  cases r with
  | declare table columns =>
    have hafter := Act.after_within Feed.catalog (fun c f => { f with catalog := c })
      (Catalog.declare table columns) l
    have hleft : t.state = _ := (congrArg Logged.state (Act.after_of_error h).symm).trans hafter
    rw [hleft]
    exact .inl (.refl _)
  | unregister table => cases h
  | start =>
    rw [start_fails (Act.discard_eq_error h)]
    exact .inl (.refl _)
  | beginStreaming place =>
    rw [beginStreaming_fails h]
    exact .inl (.refl _)
  | completeSnapshot p => exact .inl (completeSnapshot_fails (hclean p rfl) h)
  | offer e =>
    rcases offer_fails hs (Act.discard_eq_error h) with ⟨m, rfl⟩ | ⟨c, hc, hfailed⟩
    · exact .inl (.refl _)
    · have hcleanly : FailsCleanly c.position l := by
        rw [LogEntry.assemble_position hc]
        exact hclean e.position rfl
      exact (hfailed.stands hcleanly).imp_right fun htook => ⟨e, c, rfl, hc, htook⟩
  | drain source =>
    obtain ⟨d, u, hdrain, _⟩ := drainFrom_account source .start l
    have hdrain : drain source l = .ok d u := hdrain
    cases hdrain.symm.trans (Act.discard_eq_error h)
  | stop =>
    obtain ⟨ns, hok⟩ := stop_run l
    cases hok.symm.trans h

/-- So does a call to its session that passes the feed by and fails. -/
theorem direct_fails {l t : Logged (Feed σ)} (hs : l.state.session.Silent) {k : Call} {f : Fault}
    (hclean : ∀ p, k.saves? = some p → FailsCleanly p l) (h : direct k l = .error f t) :
    l.state.session.Unmoved t.state.session
      ∨ ∃ c, k = .advance c ∧ l.state.session.TookOnly c t.state.session := by
  cases k with
  | completeSnapshot p =>
    obtain ⟨u, hrun, rfl⟩ := onSession_eq_error h
    exact .inl (Session.completeSnapshot_fails (hclean p rfl) hrun)
  | beginStreaming place =>
    obtain ⟨u, hrun, rfl⟩ := onSession_eq_error h
    exact .inl (Session.beginStreaming_fails hrun)
  | advance c =>
    have hfailed : Failed l c t := advance_fails (m := l.state.meters) hs h
    exact (hfailed.stands (hclean c.position rfl)).imp_right fun htook => ⟨c, rfl, htook⟩
  | commit p =>
    obtain ⟨u, hrun, rfl⟩ := onSession_eq_error h
    exact .inl (Session.commit_fails (hclean p rfl) hrun)
  | stop =>
    obtain ⟨ns, hok⟩ := stop_run l
    cases hok.symm.trans h

/-! ## As if it had never been offered -/

/-- Whether two feeds differ at most in their meters and records. -/
def Alike (l l' : Logged (Feed σ)) : Prop :=
  ∃ m tr, l' = ⟨{ l.state with meters := m, session := l.state.session.withTrace tr }, l.notices⟩

omit [CheckpointStore σ] in
theorem alike_of_meters (f : Feed σ) (m m' : Meters) (s : Session σ LogEntry) (tr : List Event)
    (ns : List Notice) : Alike ⟨{ f with meters := m, session := s }, ns⟩
      ⟨{ f with meters := m', session := s.withTrace tr }, ns⟩ := ⟨m', tr, rfl⟩

omit [CheckpointStore σ] in
theorem Alike.withMeters {l l' : Logged (Feed σ)} (h : Alike l l') (m m' : Meters) :
    Alike ⟨{ l.state with meters := m }, l.notices⟩ ⟨{ l'.state with meters := m' }, l'.notices⟩ := by
  obtain ⟨_, tr, rfl⟩ := h
  exact ⟨m', tr, rfl⟩

/-- Whether two ends of an action are alike. -/
def AlikeEnds {α : Type} (x y : EStateM.Result Fault (Logged (Feed σ)) α) : Prop :=
  match x, y with
  | .ok a t, .ok b u => a = b ∧ t.state.session.Silent ∧ Alike t u
  | .error f t, .error g u => f = g ∧ t.state.session.Silent ∧ Alike t u
  | _, _ => False

/-- Taking a change looks neither at the meters nor at what is on record. -/
theorem advance_alike {l l' : Logged (Feed σ)} (hs : l.state.session.Silent) (h : Alike l l')
    (c : Change) : AlikeEnds (advance c l) (advance c l') := by
  obtain ⟨m, tr, rfl⟩ := h
  let s : Session σ LogEntry := l.state.session.withTrace tr
  have hs' : s.Silent := hs
  have hrefusal : s.refusal? c = l.state.session.refusal? c := rfl
  have hreaction : s.reaction = l.state.session.reaction := rfl
  have hsave : CheckpointStore.save s.key c.position ⟨s.store, l.notices⟩ =
      CheckpointStore.save l.state.session.key c.position ⟨l.state.session.store, l.notices⟩ := rfl
  rw [advance_silent hs,
    advance_silent (l := ⟨{ l.state with meters := m, session := s }, l.notices⟩) hs']
  dsimp only
  -- both runs branch on the same things, none of which is a meter or on record
  rw [hrefusal, hreaction, hsave]
  have hreacted : s.reacted c s.phase = (l.state.session.reacted c l.state.session.phase).withTrace
      (s.reacted c s.phase).trace := rfl
  have hsettled : ∀ store, s.settled c s.phase store =
      (l.state.session.settled c l.state.session.phase store).withTrace
        (s.settled c s.phase store).trace := fun _ => rfl
  rw [hreacted]
  cases l.state.session.refusal? c with
  | some f => exact ⟨rfl, hs, m, tr, rfl⟩
  | none =>
    dsimp only
    cases l.state.session.reaction.fault? with
    | some f => exact ⟨rfl, hs.of_advanced rfl, alike_of_meters ..⟩
    | none =>
      dsimp only
      cases CheckpointStore.save l.state.session.key c.position
          ⟨l.state.session.store, l.notices⟩ with
      | ok a u =>
        dsimp only
        rw [hsettled u.state]
        exact ⟨rfl, hs.of_advanced rfl, alike_of_meters ..⟩
      | error f u =>
        dsimp only
        rw [hsettled u.state]
        exact ⟨rfl, hs.of_advanced rfl, alike_of_meters ..⟩

/-- The offer of an entry is the same whatever the meters show, but for what they show then. -/
theorem offer_of_meters (f : Feed σ) (m : Meters) (s : Session σ LogEntry) (ns : List Notice)
    (e : LogEntry) (hopen : s.phase ≠ .stopped) :
    offer e ⟨{ f with meters := m, session := s }, ns⟩ = match e.assemble f.catalog with
      | .error g =>
        .error g ⟨{ f with meters := m.add 1 (tallyOf g), session := s }, ns⟩
      | .ok c =>
        match advance c ⟨{ f with meters := m.add 1 .assembled, session := s }, ns⟩ with
        | .ok _ v =>
          .ok c ⟨{ v.state with meters := { v.state.meters with position := c.position } }, v.notices⟩
        | .error g u =>
          .error g ⟨{ u.state with meters := u.state.meters.add 1 (tallyOf g) }, u.notices⟩ :=
  offer_eq (l := ⟨{ f with meters := m, session := s }, ns⟩) e hopen

/-- Nor does offering an entry look at them. -/
theorem offer_alike {l l' : Logged (Feed σ)} (hs : l.state.session.Silent) (h : Alike l l')
    (e : LogEntry) : AlikeEnds (offer e l) (offer e l') := by
  obtain ⟨f, ns⟩ := l
  obtain ⟨m, tr, rfl⟩ := h
  by_cases hopen : f.session.phase = .stopped
  · have hstopped : (f.session.withTrace tr).phase = .stopped := hopen
    rw [offer_stopped (l := ⟨f, ns⟩) e hopen,
      offer_stopped (l := ⟨{ f with meters := m, session := f.session.withTrace tr }, ns⟩) e hstopped]
    exact ⟨rfl, hs, m, tr, rfl⟩
  -- the two sides count on from different meters, so taking the change is compared for any two
  have hadvance : ∀ c m₁ m₂, AlikeEnds (advance c ⟨{ f with meters := m₁, session := f.session }, ns⟩)
      (advance c ⟨{ f with meters := m₂, session := f.session.withTrace tr }, ns⟩) :=
    fun c m₁ m₂ => advance_alike (l := ⟨{ f with meters := m₁, session := f.session }, ns⟩) hs
      (alike_of_meters f m₁ m₂ f.session tr ns) c
  dsimp only
  rw [offer_of_meters f f.meters f.session ns e hopen,
    offer_of_meters f m (f.session.withTrace tr) ns e hopen]
  cases e.assemble f.catalog with
  | error g => exact ⟨rfl, hs, alike_of_meters f _ _ f.session tr ns⟩
  | ok c =>
    dsimp only
    have hends := hadvance c (f.meters.add 1 .assembled) (m.add 1 .assembled)
    revert hends
    cases advance c ⟨{ f with meters := f.meters.add 1 .assembled, session := f.session }, ns⟩ with
    | ok a t =>
      cases advance c
          ⟨{ f with meters := m.add 1 .assembled, session := f.session.withTrace tr }, ns⟩ with
      | ok b u => exact fun hends => ⟨rfl, hends.2.1, hends.2.2.withMeters _ _⟩
      | error g u => exact fun hends => hends.elim
    | error g t =>
      cases advance c
          ⟨{ f with meters := m.add 1 .assembled, session := f.session.withTrace tr }, ns⟩ with
      | ok b u => exact fun hends => hends.elim
      | error g' u =>
        rintro ⟨rfl, hsilent, halike⟩
        exact ⟨rfl, hsilent, halike.withMeters _ _⟩

theorem results_alike {l l' : Logged (Feed σ)} (hs : l.state.session.Silent) (h : Alike l l')
    (later : List LogEntry) : Act.results offer l later = Act.results offer l' later := by
  refine Act.results_congr (R := fun l l' => l.state.session.Silent ∧ Alike l l') ?_ later ⟨hs, h⟩
  rintro e l l' ⟨hs, h⟩
  have hends := offer_alike hs h e
  unfold Act.result Act.after
  revert hends
  cases offer e l with
  | ok a t =>
    cases offer e l' with
    | ok b u =>
      rintro ⟨rfl, hafter⟩
      exact ⟨rfl, hafter⟩
    | error f u => exact fun hends => hends.elim
  | error f t =>
    cases offer e l' with
    | ok b u => exact fun hends => hends.elim
    | error g u =>
      rintro ⟨rfl, hafter⟩
      exact ⟨rfl, hafter⟩

/-- The feed with the sink that another has. -/
def withSink (f g : Feed σ) : Feed σ := { f with session := { f.session with sink := g.session.sink } }

/-- **A change that a feed fails to take is forgotten**: what is offered after it ends as it would
have if only the sink had had its turn. -/
theorem Failed.forgotten {l t : Logged (Feed σ)} {c : Change} (h : Failed l c t)
    (hs : l.state.session.Silent) (hnot : t.state.session.emitted = l.state.session.emitted)
    (later : List LogEntry) : l.state.session.SinkAdvances t.state.session
      ∧ Act.results offer t later =
        Act.results offer ⟨l.state.withSink t.state, l.notices⟩ later := by
  cases h with
  | refused m =>
    exact ⟨.inl rfl, (results_alike (l := l) hs ⟨m, l.state.session.trace, rfl⟩ later).symm⟩
  | declined m =>
    let s := l.state.session.reacted c l.state.session.phase
    let g : Feed σ := { l.state with session := { l.state.session with sink := s.sink } }
    have hsilent : g.session.Silent := hs.of_advanced rfl
    have halike : Alike ⟨g, l.notices⟩
        ⟨{ l.state with meters := m, session := s }, l.notices⟩ := ⟨m, s.trace, rfl⟩
    exact ⟨.inr rfl, (results_alike hsilent halike later).symm⟩
  | unsaved m hsave =>
    dsimp only at hnot
    rw [Session.emitted_settled] at hnot
    exact absurd hnot (by simp)

theorem offer_forgotten {l t : Logged (Feed σ)} (hs : l.state.session.Silent) {e : LogEntry}
    {f : Fault} (h : offer e l = .error f t)
    (hnot : t.state.session.emitted = l.state.session.emitted) (later : List LogEntry) :
    l.state.session.SinkAdvances t.state.session ∧ Act.results offer t later =
      Act.results offer ⟨l.state.withSink t.state, l.notices⟩ later := by
  rcases offer_fails hs h with ⟨m, rfl⟩ | ⟨c, _, hfailed⟩
  · exact ⟨.inl rfl, (results_alike (l := l) hs ⟨m, l.state.session.trace, rfl⟩ later).symm⟩
  · exact hfailed.forgotten hs hnot later

/--
**A failure leaves the stream where it stood.**

Let a sink be silent, and let the save that is asked for, should it fail, leave
what is stored for the stream as it was. Then a call to a session that fails
leaves its phase, its position and the stored position as they were and emits
nothing, and so does a request to a feed, or a call to the session of a feed. The
one exception is a change that the sink took and that the store then failed to
save: its position is the one that the stream has come to, and nothing else has
changed.

A change that failed without being taken is forgotten. Whatever is offered after
it ends as if only the sink had had its turn.
-/
theorem failures_leave_standing :
    (∀ {s t : Logged (Session σ Change)} {f : Fault}, s.state.Silent →
      (∀ k, (∀ p, k.saves? = some p → Session.FailsCleanly p s) → Session.call k s = .error f t →
        s.state.Unmoved t.state ∨ ∃ c, k = .advance c ∧ s.state.TookOnly c t.state)
      ∧ ∀ c, Session.advance c s = .error f t → s.state.Unmoved t.state → ∀ later,
          s.state.SinkAdvances t.state ∧ Act.results Session.advance t later =
            Act.results Session.advance ⟨{ s.state with sink := t.state.sink }, s.notices⟩ later)
    ∧ ∀ {l t : Logged (Feed σ)} {f : Fault}, l.state.session.Silent →
      (∀ r, (∀ p, r.saves? = some p → FailsCleanly p l) → request r l = .error f t →
        l.state.session.Unmoved t.state.session
        ∨ ∃ e c, r = .offer e ∧ e.assemble l.state.catalog = .ok c
          ∧ l.state.session.TookOnly c t.state.session)
      ∧ (∀ k, (∀ p, k.saves? = some p → FailsCleanly p l) → direct k l = .error f t →
        l.state.session.Unmoved t.state.session
        ∨ ∃ c, k = .advance c ∧ l.state.session.TookOnly c t.state.session)
      ∧ ((∃ e, offer e l = .error f t) ∨ (∃ c, direct (.advance c) l = .error f t) →
        l.state.session.Unmoved t.state.session → ∀ later,
          l.state.session.SinkAdvances t.state.session ∧ Act.results offer t later =
            Act.results offer ⟨l.state.withSink t.state, l.notices⟩ later) := by
  refine ⟨fun {s t f} hs => ⟨?_, ?_⟩, fun {l t f} hs => ⟨?_, ?_, ?_⟩⟩
  · intro k hclean h
    exact Session.call_fails hs hclean h
  · intro c h hunmoved later
    exact Session.advance_forgotten hs h hunmoved.emitted later
  · intro r hclean h
    exact request_fails hs hclean h
  · intro k hclean h
    exact direct_fails hs hclean h
  · rintro (⟨e, h⟩ | ⟨c, h⟩) hunmoved later
    · exact offer_forgotten hs h hunmoved.emitted later
    · have hfailed : Failed l c t := advance_fails (m := l.state.meters) hs h
      exact hfailed.forgotten hs hunmoved.emitted later

/-- A file store that knows of a corrupt entry for a stream fails to save its positions cleanly. -/
theorem failsCleanly_of_corrupt {l : Logged (Feed Mounted)}
    (h : (l.state.session.store.store.corrupt.get? l.state.session.key).isSome) (p : Position) :
    FailsCleanly p l := by
  intro f u hsave
  change FileStore.save l.state.session.key p ⟨l.state.session.store, l.notices⟩ = .error f u at hsave
  cases p with
  | null => cases hsave
  | known n =>
    rw [FileStore.save_run] at hsave
    cases hcorruption : l.state.session.store.store.corruption? l.state.session.key with
    | some g =>
      dsimp only at hsave
      rw [hcorruption] at hsave
      cases hsave
      rfl
    | none =>
      rw [FileStore.corruption?_eq_none.1 hcorruption] at h
      cases h

/-- The entry of the stream in the checkpoint file is corrupt. The change at 11 is refused by the sink
at first, which moves nothing, and is then taken and not saved. -/
theorem failures_leave_standing_on_corrupt_entry :
    let entry : LogEntry :=
      ⟨"t", .mark (.kind .insert), .known 11, none, some (Keyed.ofList [("id", .int 11)])⟩
    let k : Sink LogEntry := ⟨[.refuse (.malformed .noTable)], .accept⟩
    let store : FileStore := { FileStore.blank ⟨.here, ["resume.json"]⟩ true with
      corrupt := Keyed.ofList [("s", .text "tomorrow")] }
    let session : Session Mounted LogEntry :=
      { Session.waiting "s" ⟨store, Disk.empty⟩ (some k) with
        phase := .streaming, reached := .known 10 }
    let l : Logged (Feed Mounted) :=
      ⟨⟨⟨Keyed.ofList [(.text "t", ⟨.text "t", ["id"]⟩)]⟩, .start "cdc", .fail, none, session⟩, []⟩
    l.state.session.Silent ∧ (∀ p, FailsCleanly p l) ∧ ∃ f t g u, request (.offer entry) l = .error f t
      ∧ session.Unmoved t.state.session
      ∧ Act.results offer t [entry] = Act.results offer ⟨l.state.withSink t.state, []⟩ [entry]
      ∧ t.state.session.Silent ∧ (∀ p, FailsCleanly p t) ∧ request (.offer entry) t = .error g u
      ∧ ∃ c, c.position = .known 11 ∧ t.state.session.TookOnly c u.state.session
        ∧ u.state.session.stored = session.stored := by
  intro entry k store session l
  have hc : entry.assemble l.state.catalog =
      .ok ⟨"t", .insert, .known 11, ["id"], none, some [.int 11]⟩ :=
    LogEntry.assemble_insert _ rfl (by decide)
  have hsilent : l.state.session.Silent := by
    intro k' hk
    cases hk
    refine ⟨?_, trivial⟩
    intro r hr
    rw [List.mem_singleton.1 hr]
    trivial
  have hclean : ∀ p, FailsCleanly p l := failsCleanly_of_corrupt rfl
  let act : Act (Feed Mounted) Unit := request (.offer entry)
  obtain ⟨f, hfirst⟩ : ∃ f, act l = .error f (act.after l) :=
    Act.eq_error_of_not_endsWell (by decide +kernel)
  obtain ⟨g, hsecond⟩ : ∃ g, act (act.after l) = .error g (act.after (act.after l)) :=
    Act.eq_error_of_not_endsWell (by decide +kernel)
  have hwaits : (act.after l).state.session.reached = .known 10 := by decide +kernel
  have hmoves : (act.after (act.after l)).state.session.reached = .known 11 := by decide +kernel
  have hclean' : ∀ p, FailsCleanly p (act.after l) :=
    failsCleanly_of_corrupt (by decide +kernel)
  obtain ⟨hrequest, _, hforgotten⟩ := (failures_leave_standing (σ := Mounted)).2
    (l := l) (t := act.after l) (f := f) hsilent
  have hunmoved : session.Unmoved (act.after l).state.session := by
    rcases hrequest _ (fun p _ => hclean p) hfirst with h | ⟨e, c', he, hc', htook⟩
    · exact h
    · cases he
      cases hc.symm.trans hc'
      have hreached : (act.after l).state.session.reached = .known 11 :=
        congrArg Standing.reached htook.standing
      exact absurd (hwaits.symm.trans hreached) (by decide)
  have hafter := hforgotten (.inl ⟨entry, Act.discard_eq_error hfirst⟩) hunmoved [entry]
  have hsilent' : (act.after l).state.session.Silent := by
    rcases hafter.1 with hsame | hnext
    · intro k' hk
      exact hsilent k' (hsame ▸ hk)
    · exact hsilent.of_advanced hnext
  obtain ⟨hrequest', _⟩ := (failures_leave_standing (σ := Mounted)).2
    (l := act.after l) (t := act.after (act.after l)) (f := g) hsilent'
  refine ⟨hsilent, hclean, f, _, g, _, hfirst, hunmoved, hafter.2, hsilent', hclean', hsecond, ?_⟩
  rcases hrequest' _ (fun p _ => hclean' p) hsecond with h | ⟨e, c', he, hc', htook⟩
  · have hreached : (act.after (act.after l)).state.session.reached = .known 10 :=
      (congrArg Standing.reached h.standing).trans hwaits
    exact absurd (hreached.symm.trans hmoves) (by decide)
  · have hstored : (act.after (act.after l)).state.session.stored = session.stored :=
      (congrArg Standing.stored htook.standing).trans (congrArg Standing.stored hunmoved.standing)
    exact ⟨c', (congrArg Standing.reached htook.standing).symm.trans hmoves, htook, hstored⟩

end Changefeed.Feed
