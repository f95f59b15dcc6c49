import Changefeed.Proofs.Checkpoint.Calls
import Changefeed.Proofs.Feed.Counting
import Changefeed.Proofs.Feed.Requests

/-!
# What the gauge of the position shows

A feed keeps the position of its stream twice: its session counts a change as
taken once the sink took it, and its gauge is set when the offer has ended well,
after the change was saved. So the gauge shows the position of the last change
that was saved, and the session is at the last change that was taken
(`Gauged`). The two differ exactly if the last change that was taken was not
saved (`gauge_shows_last_saved`).
-/

namespace Changefeed

namespace Feed

variable {σ : Type} [CheckpointStore σ]

/-! ## The last of its kind -/

/-- The last offering of a kind, if there is one. -/
def last? (kind : Offering σ → Bool) (h : List (Offering σ)) : Option (Offering σ) :=
  (h.filter kind).getLast?

/-- The position of the last offering of a kind, or where the stream began if there is none. -/
def lastPosition (origin : Position) (kind : Offering σ → Bool) (h : List (Offering σ)) : Position :=
  ((last? kind h).map (·.entry.position)).getD origin

section Last

variable {kind : Offering σ → Bool} {h : List (Offering σ)} {o : Offering σ}

omit [CheckpointStore σ] in
theorem last?_of_kind (ho : kind o = true) : last? kind (h ++ [o]) = some o := by
  unfold last?
  rw [List.filter_append, List.filter_cons_of_pos ho, List.filter_nil, List.getLast?_concat]

omit [CheckpointStore σ] in
theorem last?_of_other (ho : kind o = false) : last? kind (h ++ [o]) = last? kind h := by
  unfold last?
  rw [List.filter_append, List.filter_cons_of_neg (by rw [ho]; exact Bool.false_ne_true),
    List.filter_nil, List.append_nil]

omit [CheckpointStore σ] in
theorem lastPosition_of_kind (origin : Position) (ho : kind o = true) :
    lastPosition origin kind (h ++ [o]) = o.entry.position := by
  unfold lastPosition
  rw [last?_of_kind ho]
  rfl

omit [CheckpointStore σ] in
theorem lastPosition_of_other (origin : Position) (ho : kind o = false) :
    lastPosition origin kind (h ++ [o]) = lastPosition origin kind h := by
  unfold lastPosition
  rw [last?_of_other ho]

end Last

/-! ## Gauge and session -/

/-- Where the gauge and the session are after a history, if the stream began at a position. -/
structure Gauged (origin : Position) (h : List (Offering σ)) (f : Feed σ) : Prop where
  reached : f.session.reached = lastPosition origin Offering.isTaken h
  gauge : f.meters.position = lastPosition origin Offering.isSaved h
  /-- The gauge is never ahead. -/
  behind : f.meters.position ≤ f.session.reached
  /-- It is level with the session unless the last change that was taken was not saved. -/
  level : f.meters.position = f.session.reached ↔
    ∀ o, last? Offering.isTaken h = some o → o.isSaved = true
  /-- While the stream waits for its snapshot, nothing is taken. -/
  untouched : f.session.phase = .snapshotting → ∀ o ∈ h, o.isTaken = false

namespace Gauged

variable {origin : Position} {h : List (Offering σ)} {f : Feed σ} {o : Offering σ}

theorem isSaved_of_not_isTaken (ho : o.isTaken = false) : o.isSaved = false := by
  unfold Offering.isTaken at ho
  exact (Bool.or_eq_false_iff.1 ho).2

/-- Where nothing was taken, gauge and session are where the stream began. -/
theorem begun (p : Position) (hnone : ∀ o ∈ h, o.isTaken = false) (hreached : f.session.reached = p)
    (hgauge : f.meters.position = p) : Gauged p h f := by
  have hlast : last? Offering.isTaken h = none := by
    unfold last?
    rw [List.filter_eq_nil_iff.2 fun o ho => by rw [hnone o ho]; exact Bool.false_ne_true]
    rfl
  have hsaved : last? Offering.isSaved h = none := by
    unfold last?
    rw [List.filter_eq_nil_iff.2 fun o ho => by
      rw [isSaved_of_not_isTaken (hnone o ho)]
      exact Bool.false_ne_true]
    rfl
  refine ⟨?_, ?_, ?_, ?_, fun _ => hnone⟩
  · rw [hreached]
    unfold lastPosition
    rw [hlast]
    rfl
  · rw [hgauge]
    unfold lastPosition
    rw [hsaved]
    rfl
  · rw [hreached, hgauge]
  · rw [hreached, hgauge, hlast]
    simp

/-- An offering that is not taken moves neither. -/
theorem not_taken (hg : Gauged origin h f) (ho : o.isTaken = false) {g : Feed σ}
    (hreached : g.session.reached = f.session.reached)
    (hgauge : g.meters.position = f.meters.position)
    (hphase : g.session.phase = .snapshotting → f.session.phase = .snapshotting) :
    Gauged origin (h ++ [o]) g := by
  have hsaved := isSaved_of_not_isTaken ho
  refine ⟨?_, ?_, ?_, ?_, ?_⟩
  · rw [hreached, lastPosition_of_other origin ho]
    exact hg.reached
  · rw [hgauge, lastPosition_of_other origin hsaved]
    exact hg.gauge
  · rw [hreached, hgauge]
    exact hg.behind
  · rw [hreached, hgauge, last?_of_other ho]
    exact hg.level
  · intro hwaiting x hx
    rcases List.mem_append.1 hx with hx | hx
    · exact hg.untouched (hphase hwaiting) x hx
    · rw [List.mem_singleton.1 hx]
      exact ho

/-- A change that is taken and not saved leaves the gauge behind. -/
theorem unsaved (hg : Gauged origin h f) (ho : o.stage = .taken) {g : Feed σ}
    (hreached : g.session.reached = o.entry.position)
    (hgauge : g.meters.position = f.meters.position) (hphase : g.session.phase ≠ .snapshotting)
    (hahead : f.session.reached < o.entry.position) : Gauged origin (h ++ [o]) g := by
  have htaken : o.isTaken = true := by simp [Offering.isTaken, ho]
  have hsaved : o.isSaved = false := by simp [Offering.isSaved, ho]
  have hlt : g.meters.position < g.session.reached := by
    rw [hgauge, hreached]
    exact lt_of_le_of_lt hg.behind hahead
  refine ⟨?_, ?_, le_of_lt hlt, ?_, fun h => absurd h hphase⟩
  · rw [hreached, lastPosition_of_kind origin htaken]
  · rw [hgauge, lastPosition_of_other origin hsaved]
    exact hg.gauge
  · rw [last?_of_kind htaken]
    refine ⟨fun h => absurd h (ne_of_lt hlt), fun h => ?_⟩
    rw [h o rfl] at hsaved
    cases hsaved

theorem saved (ho : o.stage = .saved) {g : Feed σ}
    (hreached : g.session.reached = o.entry.position) (hgauge : g.meters.position = o.entry.position)
    (hphase : g.session.phase ≠ .snapshotting) : Gauged origin (h ++ [o]) g := by
  have htaken : o.isTaken = true := by simp [Offering.isTaken, ho]
  have hsaved : o.isSaved = true := by simp [Offering.isSaved, ho]
  refine ⟨?_, ?_, ?_, ?_, fun h => absurd h hphase⟩
  · rw [hreached, lastPosition_of_kind origin htaken]
  · rw [hgauge, lastPosition_of_kind origin hsaved]
  · rw [hreached, hgauge]
  · rw [hreached, hgauge, last?_of_kind htaken]
    simp [hsaved]

/-- Only gauge and session count. -/
theorem congr (hg : Gauged origin h f) {g : Feed σ} (hreached : g.session.reached = f.session.reached)
    (hgauge : g.meters.position = f.meters.position)
    (hphase : g.session.phase = .snapshotting → f.session.phase = .snapshotting) :
    Gauged origin h g := by
  refine ⟨?_, ?_, ?_, ?_, fun hw => hg.untouched (hphase hw)⟩
  · rw [hreached]; exact hg.reached
  · rw [hgauge]; exact hg.gauge
  · rw [hreached, hgauge]; exact hg.behind
  · rw [hreached, hgauge]; exact hg.level

/-- An offer moves both or neither, unless its change is taken and not saved. -/
theorem offer {l : Logged (Feed σ)} (hg : Gauged origin h l.state) (e : LogEntry)
    (hq : l.state.session.Quiet) (hopen : l.state.session.phase ≠ .stopped) :
    Gauged origin (h ++ [⟨l, e⟩]) ((Feed.offer e).after l).state := by
  have hleft : ∀ {ph}, l.state.session.Leaves ph → ph ≠ .snapshotting := by
    rintro ph (rfl | ⟨rfl, _⟩) <;> simp
  have hnot : ∀ {st}, offerStage e l = st → st ≠ .taken → st ≠ .saved →
      (⟨l, e⟩ : Offering σ).isTaken = false := by
    intro st hst h₁ h₂
    unfold Offering.isTaken Offering.stage
    simp [hst, h₁, h₂]
  -- nothing is taken in the first three ways; in the fourth the session moves alone, in the last both
  rcases offer_ending hq hopen e with ⟨_, hs, hr⟩ | ⟨_, _, hs, hr⟩ | ⟨_, ahead, leaves, hs, hr⟩
    | ⟨hc, ahead, leaves, _, hs, hr⟩ | ⟨hc, ahead, leaves, _, hs, hr⟩
  · rw [Act.after_of_error hr]
    exact hg.not_taken (hnot hs (by simp) (by simp)) rfl (Meters.add_position ..) id
  · rw [Act.after_of_error hr]
    refine hg.not_taken (hnot hs (by simp) (by simp)) rfl ?_ id
    dsimp only
    rw [Meters.add_position, Meters.add_position]
  · rw [Act.after_of_error hr]
    refine hg.not_taken (hnot hs (by simp) (by simp)) rfl ?_ fun h => absurd h (hleft leaves)
    dsimp only
    rw [Meters.add_position, Meters.add_position]
  · rw [Act.after_of_error hr]
    have hlt := (Session.refusal?_eq_none.1 ahead).2
    rw [LogEntry.assemble_position hc] at hlt
    refine hg.unsaved (o := ⟨l, e⟩) hs (LogEntry.assemble_position hc) ?_ (hleft leaves) hlt
    dsimp only
    rw [Meters.add_position, Meters.add_position, Meters.add_position]
  · rw [Act.after_of_ok hr]
    have hposition := LogEntry.assemble_position hc
    exact saved (o := ⟨l, e⟩) hs hposition hposition (hleft leaves)

end Gauged

/-- Gauge and session are where the history leaves them. -/
theorem gauged_lasting :
    Lasting fun (h : List (Offering σ)) (f : Feed σ) => ∃ origin, Gauged origin h f where
  catalog := by
    rintro h f catalog ⟨origin, hg⟩
    exact ⟨origin, hg.congr rfl rfl id⟩
  sink := by
    rintro h f k _ ⟨origin, hg⟩
    exact ⟨origin, hg.congr rfl rfl id⟩
  stop := by
    rintro h f ⟨origin, hg⟩
    exact ⟨origin, hg.congr rfl rfl fun h => by cases h⟩
  completeSnapshot := by
    rintro h l p ⟨origin, hg⟩
    rcases completeSnapshot_cases p l with ⟨f, hf⟩ | ⟨_, f, u, _, hf⟩ | ⟨hw, u, ns, hok⟩
    · rw [Act.after_of_error hf]
      exact ⟨origin, hg⟩
    · rw [Act.after_of_error hf]
      exact ⟨origin, hg.congr rfl rfl id⟩
    · rw [Act.after_of_ok hok]
      -- streaming begins anew at `p`, and while the stream waited nothing was taken
      exact ⟨p, .begun p (hg.untouched hw) rfl rfl⟩
  beginStreaming := by
    rintro h l place ⟨origin, hg⟩
    rcases beginStreaming_cases place l with ⟨f, hf⟩ | ⟨hw, p, ns, hok⟩
    · rw [Act.after_of_error hf]
      exact ⟨origin, hg⟩
    · rw [Act.after_of_ok hok]
      exact ⟨p, .begun p (hg.untouched hw) rfl rfl⟩
  offer := by
    rintro h l e hq hopen ⟨origin, hg⟩
    exact ⟨origin, hg.offer e hq hopen⟩

/--
**What the gauge of the position shows.**

After any requests to a feed that was opened, whichever of them fail, its stream
is at the position of the last change that the sink took, and its gauge shows the
position of the last one that was saved; before there is such a change both are
where the stream began. So the gauge shows where the stream is, as nearly as a
double can, exactly as long as the last change that was taken was saved too.
-/
theorem gauge_shows_last_saved {S : Type} {o : Options} {store : σ} {sink : Sink LogEntry}
    {l t : Logged S} {f : Feed σ} (h : openOn o store sink l = .ok f t) (hsink : sink.Quiet)
    {rs : List Request} (hrs : ∀ r ∈ rs, r.Quiet) :
    let start : Logged (Feed σ) := ⟨f, t.notices⟩
    let offered := history start rs
    let now := (afterRequests start rs).state
    (∃ origin, now.reached = lastPosition origin Offering.isTaken offered
        ∧ now.meters.position = lastPosition origin Offering.isSaved offered)
      ∧ (now.meters.position = now.reached ↔
          ∀ o, last? Offering.isTaken offered = some o → o.isSaved = true)
      ∧ (now.meters.position = now.reached →
          now.meters.shownPosition = (Double.ofInt now.reached.sequence).truncate) := by
  intro start offered now
  obtain ⟨hmeters, _⟩ := openOn_fresh h
  have hbegun : Gauged f.session.reached [] start.state :=
    .begun _ (fun _ h => by cases h) rfl (by show f.meters.position = _; rw [hmeters])
  obtain ⟨_, origin, hg⟩ := gauged_lasting.requests hrs (openOn_quiet h hsink) ⟨_, hbegun⟩
  refine ⟨⟨origin, hg.reached, hg.gauge⟩, hg.level, fun hsame => ?_⟩
  unfold Meters.shownPosition
  rw [hsame]

/-- A stream that resumes at 10 takes the change at 11 while the disk is full and the one at 12 when
it is not: its gauge falls behind and catches up. -/
theorem gauge_catches_up :
    let entry (n : Sequence) : LogEntry :=
      ⟨"t", .mark (.kind .insert), .known n, none, some (Keyed.ofList [("id", .int n)])⟩
    let options : Options := ⟨"s", false, "fail", some (.known 10), "cdc"⟩
    let disk : Disk := { Disk.empty with plan := ⟨[true], [], []⟩ }
    let store : Mounted := ⟨FileStore.blank ⟨.here, ["resume.json"]⟩ false, disk⟩
    let table : Request := .declare (.text "t") (.list [.text "id"])
    let before : Logged Unit := ⟨(), []⟩
    ∃ (f : Feed Mounted) (t : Logged Unit),
      openOn options store (.always .accept) before = .ok f t
        ∧ (let now := (afterRequests ⟨f, t.notices⟩ [table, .offer (entry 11)]).state
          now.reached = .known 11 ∧ now.meters.position = .known 10)
        ∧ (let rs := [table, .offer (entry 11), .offer (entry 12)]
          let now := (afterRequests ⟨f, t.notices⟩ rs).state
          (∀ r ∈ rs, r.Quiet) ∧ now.reached = .known 12 ∧ now.meters.position = now.reached) := by
  intro entry options disk store table before
  have hquiet : (Sink.always (.accept : Reaction LogEntry)).Quiet := ⟨nofun, trivial⟩
  obtain ⟨f, t, hopen⟩ : ∃ f t, openOn options store (.always .accept) before = .ok f t := ⟨_, _, rfl⟩
  have hrs : ∀ r ∈ [table, .offer (entry 11), .offer (entry 12)], r.Quiet := by
    intro r hr
    simp only [List.mem_cons, List.not_mem_nil, or_false] at hr
    rcases hr with rfl | rfl | rfl <;> trivial
  obtain ⟨_, hlevel, _⟩ := gauge_shows_last_saved hopen hquiet hrs
  refine ⟨f, t, hopen, ?_, hrs, ?_, hlevel.2 ?_⟩
  · cases hopen
    decide +kernel
  · cases hopen
    decide +kernel
  · intro o ho
    have hlast : ((last? Offering.isTaken (history ⟨f, t.notices⟩
        [table, .offer (entry 11), .offer (entry 12)])).map Offering.isSaved) = some true := by
      cases hopen
      decide +kernel
    rw [ho] at hlast
    exact Option.some.inj hlast

/-- The store is full, and the change at 11 that the sink takes is counted by the session and not by
the gauge. -/
theorem gauge_behind_session :
    let entry (n : Sequence) : LogEntry :=
      ⟨"t", .mark (.kind .insert), .known n, none, some (Keyed.ofList [("id", .int n)])⟩
    let options : Options := ⟨"s", false, "fail", some (.known 10), "cdc"⟩
    let store : Unreliable MemoryStore := ⟨MemoryStore.empty, some .save⟩
    let table : Request := .declare (.text "t") (.list [.text "id"])
    let before : Logged Unit := ⟨(), []⟩
    ∃ (f : Feed (Unreliable MemoryStore)) (t : Logged Unit),
      openOn options store (.always .accept) before = .ok f t
        ∧ (let now := (afterRequests ⟨f, t.notices⟩ [table, .offer (entry 11)]).state
          now.reached = .known 11 ∧ (Double.ofInt now.reached.sequence).truncate = 11
            ∧ now.meters.shownPosition = 10) := by
  intro entry options store table before
  refine ⟨_, _, rfl, ?_⟩
  decide +kernel

end Feed

end Changefeed
