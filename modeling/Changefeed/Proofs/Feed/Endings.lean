import Changefeed.Proofs.Feed.Offers

/-!
# How taking a change ends

A change that comes of an offer is taken as its session takes it: checked against
the order of the stream, handed to the sink, saved. Where the sink offers nothing
more while it is handed a change, this can end in four ways, and each leaves a
state that can be written down (`advance_ending`). An offer adds to that what its
meters show (`offer_eq`).

Whatever is said below of offers, of requests and of whole histories of them goes
back to these four ways.
-/

namespace Changefeed

namespace Feed

variable {σ : Type} [CheckpointStore σ]

/-! ## Taking a change -/

/-- Takes a change: hands it to the sink and saves its position. -/
def advance (c : Change) : Act (Feed σ) Unit := do
  onSession (Session.requireNext c)
  handToSink c
  onSession (Session.settle c)

theorem advance_run (c : Change) (l : Logged (Feed σ)) :
    advance c l = match l.state.session.refusal? c with
      | some f => .error f l
      | none =>
        match reacting c l with
        | .error f u => .error f u
        | .ok _ u => settling c u := by
  have hnext := requireNext_run c l.state l.notices
  have hhand := handToSink_run c l
  unfold advance
  cases hr : l.state.session.refusal? c with
  | some f =>
    rw [hr] at hnext
    exact Act.bind_of_error hnext
  | none =>
    rw [hr] at hnext
    rw [Act.bind_of_ok hnext]
    dsimp only
    cases hreact : reacting c l with
    | error f u =>
      rw [hreact] at hhand
      exact Act.bind_of_error hhand
    | ok a u =>
      rw [hreact] at hhand
      exact Act.bind_of_ok hhand

/-- A stopped feed refuses an offer, and counts nothing. -/
theorem offer_stopped (e : LogEntry) {l : Logged (Feed σ)}
    (h : l.state.session.phase = .stopped) :
    offer e l = .error (.stopped (.offer l.state.session.key)) l := by
  have hstopped : l.state.session.isStopped = true := decide_eq_true h
  rw [offer_run, if_pos hstopped]

theorem reacting_counted (c : Change) (l : Logged (Feed σ)) :
    reacting c ⟨l.state.counted .assembled, l.notices⟩ = handing c l := by
  unfold reacting handing
  rw [counted_session]

/-- **An offer** is the taking of a change, with what the meters make of how that ends. -/
theorem offer_eq (e : LogEntry) {l : Logged (Feed σ)} (hopen : l.state.session.phase ≠ .stopped) :
    offer e l = match e.assemble l.state.catalog with
      | .error f => .error f ⟨{ l.state with meters := l.state.meters.add 1 (tallyOf f) }, l.notices⟩
      | .ok c =>
        match advance c ⟨{ l.state with meters := l.state.meters.add 1 .assembled }, l.notices⟩ with
        | .ok _ v =>
          .ok c ⟨{ v.state with meters := { v.state.meters with position := c.position } }, v.notices⟩
        | .error f u =>
          .error f ⟨{ u.state with meters := u.state.meters.add 1 (tallyOf f) }, u.notices⟩ := by
  have hnot : ¬l.state.session.isStopped = true := fun h => hopen (of_decide_eq_true h)
  rw [offer_run, if_neg hnot, process_run]
  cases e.assemble l.state.catalog with
  | error f => rfl
  | ok c =>
    have hcounted : advance c ⟨{ l.state with meters := l.state.meters.add 1 .assembled }, l.notices⟩ =
        advance c ⟨l.state.counted .assembled, l.notices⟩ := rfl
    dsimp only
    rw [hcounted, advance_run, reacting_counted, counted_session]
    cases l.state.session.refusal? c with
    | some f => rfl
    | none =>
      dsimp only
      cases handing c l with
      | error f u => rfl
      | ok a u =>
        dsimp only
        cases settling c u <;> rfl

/-! ## What a quiet sink does -/

/-- A feed whose session is in a phase. -/
def inPhase (f : Feed σ) (ph : Phase) : Feed σ := { f with session := { f.session with phase := ph } }

omit [CheckpointStore σ] in
theorem stop_run (l : Logged (Feed σ)) : ∃ ns, stop l = .ok () ⟨l.state.inPhase .stopped, ns⟩ := by
  obtain ⟨ns, hs⟩ := Session.stop_run ⟨l.state.session, l.notices⟩
  refine ⟨ns, ?_⟩
  unfold stop
  rw [onSession_run, hs]
  rfl

/-- A stream that has left for streaming does not complete its snapshot. -/
theorem completeSnapshot_of_left (p : Position) {l : Logged (Feed σ)}
    (h : l.state.session.phase ≠ .snapshotting) : ∃ f, completeSnapshot p l = .error f l := by
  rcases Session.completeSnapshot_cases p ⟨l.state.session, l.notices⟩ with
    ⟨_, f, hf⟩ | ⟨hw, _⟩ | ⟨hw, _⟩
  · refine ⟨f, Act.bind_of_error ?_⟩
    rw [onSession_run, hf]
  · exact absurd hw h
  · exact absurd hw h

/-- All that can be seen afterwards of a quiet reaction is whether it stopped the stream. -/
theorem carryOut_quiet {r : Reaction LogEntry} (c : Change) :
    ∀ {l : Logged (Feed σ)}, r.Quiet → l.state.session.phase ≠ .snapshotting →
      ∃ ph, (ph = l.state.session.phase ∨ ph = .stopped ∧ ¬r.Silent)
        ∧ ((r.carryOut callbacks c).after l).state = l.state.inPhase ph := by
  induction r with
  | accept => intro l _ _; exact ⟨l.state.session.phase, .inl rfl, rfl⟩
  | refuse f => intro l _ _; exact ⟨l.state.session.phase, .inl rfl, rfl⟩
  | stop next ih =>
    intro l hr _
    obtain ⟨ns, hs⟩ := stop_run l
    obtain ⟨ph, hph, ha⟩ := ih (l := ⟨l.state.inPhase .stopped, ns⟩) hr (by simp [inPhase])
    have hstopped : ph = .stopped := by rcases hph with h | ⟨h, _⟩ <;> exact h
    rw [hstopped] at ha
    refine ⟨.stopped, .inr ⟨rfl, id⟩, ?_⟩
    rw [Reaction.carryOut, Act.after_bind_of_ok (show callbacks.stop l = _ from hs)]
    exact ha
  | completeSnapshot next ih =>
    intro l hr hleft
    -- the sink is only handed changes while the stream streams, so this is refused
    obtain ⟨f, hf⟩ := completeSnapshot_of_left c.position hleft
    refine ⟨l.state.session.phase, .inl rfl, ?_⟩
    rw [Reaction.carryOut,
      Act.after_bind_of_error (show callbacks.completeSnapshot c.position l = _ from hf)]
    rfl
  | offer more inner next => intro l hr _; exact hr.elim

/-! ## The four ways -/

/-- How far an offer comes. -/
inductive Stage where
  /-- No change comes of it. -/
  | received
  /-- The stream refuses the change. -/
  | assembled
  /-- The sink is handed the change and refuses it. -/
  | handed
  /-- The sink takes the change, and the store does not save it. -/
  | taken
  | saved
deriving DecidableEq, Repr

/-- How far a change comes that a feed is to take. -/
def stage (c : Change) (l : Logged (Feed σ)) : Stage :=
  match l.state.session.refusal? c with
  | some _ => .assembled
  | none =>
    match reacting c l with
    | .error .. => .handed
    | .ok _ u =>
      match settling c u with
      | .error .. => .taken
      | .ok .. => .saved

theorem settling_run (c : Change) (f : Feed σ) (ph : Phase) (ns : List Notice) :
    settling c ⟨{ f with session := f.session.reacted c ph }, ns⟩ =
      match CheckpointStore.save f.session.key c.position ⟨f.session.store, ns⟩ with
      | .ok _ u => .ok () ⟨{ f with
          meters := f.meters.add 1 .published
          session := f.session.settled c ph u.state }, u.notices⟩
      | .error g u => .error g ⟨{ f with
          meters := f.meters.add 1 .published
          session := f.session.settled c ph u.state }, u.notices⟩ := by
  let g : Feed σ := { f with session := f.session.reacted c ph }
  let s : Session σ LogEntry := { (g.taken c).session with reached := c.position }
  have hsettle : Session.settle c ⟨(g.taken c).session, ns⟩ = Session.save c.position ⟨s, ns⟩ := rfl
  have hkey : s.key = f.session.key := rfl
  have hstore : s.store = f.session.store := rfl
  unfold settling
  rw [onSession_run]
  dsimp only
  rw [hsettle, Session.save_run, Act.within]
  dsimp only
  rw [hkey, hstore]
  unfold Session.settled
  cases CheckpointStore.save f.session.key c.position ⟨f.session.store, ns⟩ <;>
    simp [s, g, Session.reacted, taken, counted]

/-- How the taking of a change ends. -/
inductive Ending (c : Change) (l : Logged (Feed σ)) : Prop
  | refused {f : Fault} (refusal : l.state.session.refusal? c = some f)
      (stage : stage c l = .assembled) (run : advance c l = .error f l)
  /-- The sink refuses the change. -/
  | declined {f : Fault} {ph : Phase} {ns : List Notice}
      (ahead : l.state.session.refusal? c = none) (leaves : l.state.session.Leaves ph)
      (stage : stage c l = .handed) (run : advance c l =
        .error f ⟨{ l.state with session := l.state.session.reacted c ph }, ns⟩)
  /-- The sink takes the change, and the store fails to save it. -/
  | unsaved {f : Fault} {ph : Phase} {ns : List Notice} {u : Logged σ}
      (ahead : l.state.session.refusal? c = none) (leaves : l.state.session.Leaves ph)
      (save : CheckpointStore.save l.state.session.key c.position ⟨l.state.session.store, ns⟩ =
        .error f u)
      (stage : stage c l = .taken)
      (run : advance c l = .error f ⟨{ l.state with
        meters := l.state.meters.add 1 .published
        session := l.state.session.settled c ph u.state }, u.notices⟩)
  | saved {ph : Phase} {ns : List Notice} {u : Logged σ}
      (ahead : l.state.session.refusal? c = none) (leaves : l.state.session.Leaves ph)
      (save : CheckpointStore.save l.state.session.key c.position ⟨l.state.session.store, ns⟩ =
        .ok () u)
      (stage : stage c l = .saved)
      (run : advance c l = .ok () ⟨{ l.state with
        meters := l.state.meters.add 1 .published
        session := l.state.session.settled c ph u.state }, u.notices⟩)

/-- **How the taking of a change ends**, with a quiet sink. -/
theorem advance_ending {l : Logged (Feed σ)} (hq : l.state.session.Quiet) (c : Change) : Ending c l := by
  have hrun := advance_run c l
  have hstage := stage.eq_1 c l
  cases hr : l.state.session.refusal? c with
  | some f =>
    rw [hr] at hrun hstage
    exact .refused hr hstage hrun
  | none =>
    rw [hr] at hrun hstage
    dsimp only at hrun hstage
    have hstreaming := (Session.refusal?_eq_none.1 hr).1
    -- all that the reaction adds to the hand-over is a phase
    obtain ⟨ph, hph, ha⟩ := carryOut_quiet c (l := ⟨l.state.handed c, l.notices⟩) hq.reaction
      (by show l.state.session.phase ≠ _; rw [hstreaming]; simp)
    have hleaves : l.state.session.Leaves ph := hph.imp_left fun h => h.trans hstreaming
    have hreacted : (l.state.handed c).inPhase ph =
        { l.state with session := l.state.session.reacted c ph } := rfl
    dsimp only at ha
    rw [hreacted] at ha
    let react : Act (Feed σ) Unit := l.state.session.reaction.carryOut callbacks c
    cases hreact : reacting c l with
    | error f u =>
      obtain ⟨g, ns⟩ := u
      have hleft : react.after ⟨l.state.handed c, l.notices⟩ = ⟨g, ns⟩ := Act.after_of_error hreact
      rw [hreact] at hrun hstage
      rw [hleft] at ha
      subst ha
      exact .declined hr hleaves hstage hrun
    | ok a u =>
      obtain ⟨g, ns⟩ := u
      have hleft : react.after ⟨l.state.handed c, l.notices⟩ = ⟨g, ns⟩ := Act.after_of_ok hreact
      rw [hreact] at hrun hstage
      rw [hleft] at ha
      subst ha
      dsimp only at hrun hstage
      rw [settling_run] at hrun hstage
      cases hsave : CheckpointStore.save l.state.session.key c.position
          ⟨l.state.session.store, ns⟩ with
      | error f u =>
        rw [hsave] at hrun hstage
        exact .unsaved hr hleaves hsave hstage hrun
      | ok b u =>
        rw [hsave] at hrun hstage
        exact .saved hr hleaves hsave hstage hrun

/-! ## How an offer ends -/

/-- How far an offer of an entry comes. -/
def offerStage (e : LogEntry) (l : Logged (Feed σ)) : Stage :=
  match e.assemble l.state.catalog with
  | .error _ => .received
  | .ok c => stage c ⟨{ l.state with meters := l.state.meters.add 1 .assembled }, l.notices⟩

/-- How an offer to a feed that is not stopped ends. -/
inductive OfferEnding (e : LogEntry) (l : Logged (Feed σ)) : Prop
  | unread {f : Fault} (assembly : e.assemble l.state.catalog = .error f)
      (stage : offerStage e l = .received)
      (run : offer e l = .error f
        ⟨{ l.state with meters := l.state.meters.add 1 (tallyOf f) }, l.notices⟩)
  | refused {c : Change} {f : Fault} (assembly : e.assemble l.state.catalog = .ok c)
      (refusal : l.state.session.refusal? c = some f) (stage : offerStage e l = .assembled)
      (run : offer e l = .error f ⟨{ l.state with
        meters := (l.state.meters.add 1 .assembled).add 1 (tallyOf f) }, l.notices⟩)
  | declined {c : Change} {f : Fault} {ph : Phase} {ns : List Notice}
      (assembly : e.assemble l.state.catalog = .ok c)
      (ahead : l.state.session.refusal? c = none) (leaves : l.state.session.Leaves ph)
      (stage : offerStage e l = .handed)
      (run : offer e l = .error f ⟨{ l.state with
        meters := (l.state.meters.add 1 .assembled).add 1 (tallyOf f)
        session := l.state.session.reacted c ph }, ns⟩)
  | unsaved {c : Change} {f : Fault} {ph : Phase} {ns : List Notice} {u : Logged σ}
      (assembly : e.assemble l.state.catalog = .ok c)
      (ahead : l.state.session.refusal? c = none) (leaves : l.state.session.Leaves ph)
      (save : CheckpointStore.save l.state.session.key c.position ⟨l.state.session.store, ns⟩ =
        .error f u)
      (stage : offerStage e l = .taken)
      (run : offer e l = .error f ⟨{ l.state with
        meters := ((l.state.meters.add 1 .assembled).add 1 .published).add 1 (tallyOf f)
        session := l.state.session.settled c ph u.state }, u.notices⟩)
  | saved {c : Change} {ph : Phase} {ns : List Notice} {u : Logged σ}
      (assembly : e.assemble l.state.catalog = .ok c)
      (ahead : l.state.session.refusal? c = none) (leaves : l.state.session.Leaves ph)
      (save : CheckpointStore.save l.state.session.key c.position ⟨l.state.session.store, ns⟩ =
        .ok () u)
      (stage : offerStage e l = .saved)
      (run : offer e l = .ok c ⟨{ l.state with
        meters := { (l.state.meters.add 1 .assembled).add 1 .published with position := c.position }
        session := l.state.session.settled c ph u.state }, u.notices⟩)

/-- Whatever the meters show while it is taken, taking a change goes by the session alone. -/
theorem offer_ending_of_assembled {l : Logged (Feed σ)} (hq : l.state.session.Quiet) {e : LogEntry}
    {c : Change} {m : Meters} (hc : e.assemble l.state.catalog = .ok c)
    (hm : l.state.meters.add 1 .assembled = m)
    (hstage : offerStage e l = stage c ⟨{ l.state with meters := m }, l.notices⟩)
    (hrun : offer e l = match advance c ⟨{ l.state with meters := m }, l.notices⟩ with
      | .ok _ v =>
        .ok c ⟨{ v.state with meters := { v.state.meters with position := c.position } }, v.notices⟩
      | .error f u =>
        .error f ⟨{ u.state with meters := u.state.meters.add 1 (tallyOf f) }, u.notices⟩) :
    OfferEnding e l := by
  rcases advance_ending (l := ⟨{ l.state with meters := m }, l.notices⟩) hq c with
    ⟨refusal, hs, hr⟩ | ⟨ahead, leaves, hs, hr⟩ | ⟨ahead, leaves, save, hs, hr⟩
      | ⟨ahead, leaves, save, hs, hr⟩ <;>
    rw [hs] at hstage <;> rw [hr] at hrun <;> dsimp only at * <;> subst hm
  · exact .refused hc refusal hstage hrun
  · exact .declined hc ahead leaves hstage hrun
  · exact .unsaved hc ahead leaves save hstage hrun
  · exact .saved hc ahead leaves save hstage hrun

/-- **How an offer ends**: no change comes of it, or as the taking of that change does. -/
theorem offer_ending {l : Logged (Feed σ)} (hq : l.state.session.Quiet)
    (hopen : l.state.session.phase ≠ .stopped) (e : LogEntry) : OfferEnding e l := by
  have hrun := offer_eq e hopen
  have hstage := offerStage.eq_1 e l
  cases hc : e.assemble l.state.catalog with
  | error f =>
    rw [hc] at hrun hstage
    exact .unread hc hstage hrun
  | ok c =>
    rw [hc] at hrun hstage
    exact offer_ending_of_assembled hq hc rfl hstage hrun

end Feed

end Changefeed
