import Changefeed.Proofs.Checkpoint.Calls
import Changefeed.Proofs.Feed.Counting
import Changefeed.Proofs.Feed.Requests

/-!
# The totals of a feed and its history

A feed keeps four totals and raises them at four depths of an offer: when a
change was assembled, when the sink took it, and when the offer ends with a
fault, by the kind of that fault. Each offering of a history therefore counts in
some of the four (`Offering.counts`), and each total is the number of offerings
that count in it (`totals_account`).
-/

namespace Changefeed

namespace Feed

variable {σ : Type} [CheckpointStore σ]

/-- A fault counts as one of order or as an error. -/
theorem tallyOf_cases (f : Fault) : tallyOf f = .outOfOrder ∨ tallyOf f = .errors := by
  unfold tallyOf
  split
  · exact .inl rfl
  · exact .inr rfl

/-! ## What an offering counts in -/

namespace Offering

/-- Whether the offer ends with a fault that counts in a tally. -/
def failsAs (t : Tally) (o : Offering σ) : Bool :=
  match o.result with
  | .ok _ => false
  | .error f => tallyOf f = t

/-- Whether a change comes of the entry. -/
def isAssembled (o : Offering σ) : Bool := (o.entry.assemble o.feed.state.catalog).toBool

/-- Whether an offering counts in a tally. -/
def counts (o : Offering σ) : Tally → Bool
  | .assembled => o.isAssembled
  | .published => o.isTaken
  | .outOfOrder => o.failsAs .outOfOrder
  | .errors => o.failsAs .errors

end Offering

/-- An offer ends normally, or with a fault that counts in exactly one of two tallies. -/
theorem history_length (h : List (Offering σ)) : h.length = h.countP Offering.isReturned
    + h.countP (Offering.failsAs .outOfOrder) + h.countP (Offering.failsAs .errors) := by
  induction h with
  | nil => rfl
  | cons o rest ih =>
    have hone : 1 = (if o.isReturned then 1 else 0) + (if o.failsAs .outOfOrder then 1 else 0)
        + (if o.failsAs .errors then 1 else 0) := by
      unfold Offering.isReturned Offering.failsAs
      cases o.result with
      | ok c => rfl
      | error f => rcases tallyOf_cases f with ht | ht <;> simp [ht, Except.toBool]
    rw [List.length_cons, List.countP_cons, List.countP_cons, List.countP_cons, ih]
    omega

/-! ## What an offer adds to the totals -/

namespace Offering

/-- The tallies that an offering counts in, in the order in which the offer raises them. -/
def tallies (o : Offering σ) : List Tally :=
  (if o.isAssembled then [.assembled] else []) ++ (if o.isTaken then [.published] else [])
    ++ match o.result with
      | .ok _ => []
      | .error f => [tallyOf f]

theorem counts_eq (o : Offering σ) (t : Tally) : o.counts t = decide (t ∈ o.tallies) := by
  unfold tallies counts failsAs
  cases o.result with
  | ok c => cases o.isAssembled <;> cases o.isTaken <;> cases t <;> simp
  | error f =>
    rcases tallyOf_cases f with hf | hf <;> cases o.isAssembled <;> cases o.isTaken <;> cases t <;>
      simp [hf]

theorem nodup_tallies (o : Offering σ) : o.tallies.Nodup := by
  unfold tallies
  cases o.result with
  | ok c => cases o.isAssembled <;> cases o.isTaken <;> simp
  | error f =>
    rcases tallyOf_cases f with hf | hf <;> cases o.isAssembled <;> cases o.isTaken <;> simp [hf]

end Offering

/-- An offer counts one more of each of its tallies. -/
theorem offer_counts {l : Logged (Feed σ)} (hq : l.state.session.Quiet)
    (hopen : l.state.session.phase ≠ .stopped) (e : LogEntry) (t : Tally) :
    ((offer e).after l).state.meters.counter t = ((Offering.mk l e).tallies.foldl
      (fun m t => m.add 1 t) l.state.meters).counter t := by
  have hassembled : (Offering.mk l e).isAssembled = (e.assemble l.state.catalog).toBool := rfl
  have hresult : (Offering.mk l e).result = (offer e).result l := rfl
  have hstage : (Offering.mk l e).stage = offerStage e l := rfl
  unfold Offering.tallies Offering.isTaken
  rw [hassembled, hresult, hstage]
  -- in each of the ways the meters that the run leaves spell the tallies out
  rcases offer_ending hq hopen e with ⟨hc, hs, hr⟩ | ⟨hc, _, hs, hr⟩ | ⟨hc, _, _, hs, hr⟩
    | ⟨hc, _, _, _, hs, hr⟩ | ⟨hc, _, _, _, hs, hr⟩
  · rw [Act.after_of_error hr, Act.result_of_error hr, hc, hs]
    simp [Except.toBool]
  · rw [Act.after_of_error hr, Act.result_of_error hr, hc, hs]
    simp [Except.toBool]
  · rw [Act.after_of_error hr, Act.result_of_error hr, hc, hs]
    simp [Except.toBool]
  · rw [Act.after_of_error hr, Act.result_of_error hr, hc, hs]
    simp [Except.toBool]
  · rw [Act.after_of_ok hr, Act.result_of_ok hr, hc, hs]
    simp [Except.toBool, Meters.counter_showing]

/-! ## The account -/

/-- What the totals and the record of a feed have to do with the history. -/
structure Accounted (h : List (Offering σ)) (f : Feed σ) : Prop where
  total : ∀ t, (f.meters.counter t).count = h.countP (·.counts t)
  emitted : f.session.emitted.length = h.countP Offering.isTaken
  /-- An offer ends normally exactly if the change was saved. -/
  returned : ∀ o ∈ h, o.isReturned = o.isSaved

namespace Accounted

variable {h : List (Offering σ)} {f : Feed σ}

/-- Only the counters and what was emitted count. -/
theorem congr (ha : Accounted h f) {g : Feed σ} (hcounter : ∀ t, g.meters.counter t = f.meters.counter t)
    (hemitted : g.session.emitted = f.session.emitted) : Accounted h g :=
  ⟨fun t => by rw [hcounter t, ha.total t], by rw [hemitted, ha.emitted], ha.returned⟩

/-- What was emitted grows exactly with an offering that is taken, and an offer ends normally
exactly if its change is saved. -/
theorem offer_emitted {l : Logged (Feed σ)} (hq : l.state.session.Quiet)
    (hopen : l.state.session.phase ≠ .stopped) (e : LogEntry) :
    ((Feed.offer e).after l).state.session.emitted.length =
        l.state.session.emitted.length + (if (Offering.mk l e).isTaken then 1 else 0)
      ∧ (Offering.mk l e).isReturned = (Offering.mk l e).isSaved := by
  have hreturned : (Offering.mk l e).isReturned = ((Feed.offer e).result l).toBool := rfl
  have hstage : (Offering.mk l e).stage = offerStage e l := rfl
  unfold Offering.isTaken Offering.isSaved
  rw [hreturned, hstage]
  rcases offer_ending hq hopen e with ⟨_, hs, hr⟩ | ⟨_, _, hs, hr⟩ | ⟨_, _, _, hs, hr⟩
    | ⟨_, _, _, _, hs, hr⟩ | ⟨_, _, _, _, hs, hr⟩
  · rw [Act.after_of_error hr, Act.result_of_error hr, hs]
    simp [Except.toBool]
  · rw [Act.after_of_error hr, Act.result_of_error hr, hs]
    simp [Except.toBool]
  · rw [Act.after_of_error hr, Act.result_of_error hr, hs, Session.emitted_reacted]
    simp [Except.toBool]
  · rw [Act.after_of_error hr, Act.result_of_error hr, hs, Session.emitted_settled]
    simp [Except.toBool]
  · rw [Act.after_of_ok hr, Act.result_of_ok hr, hs, Session.emitted_settled]
    simp [Except.toBool]

theorem offer {l : Logged (Feed σ)} (ha : Accounted h l.state) (e : LogEntry)
    (hq : l.state.session.Quiet) (hopen : l.state.session.phase ≠ .stopped) :
    Accounted (h ++ [⟨l, e⟩]) ((Feed.offer e).after l).state := by
  obtain ⟨hemitted, hreturned⟩ := offer_emitted hq hopen e
  refine ⟨fun t => ?_, ?_, ?_⟩
  · rw [offer_counts hq hopen e t, Meters.counter_addAll t (Offering.nodup_tallies _),
      List.countP_append, List.countP_singleton, Offering.counts_eq]
    by_cases ht : t ∈ (Offering.mk l e).tallies
    · simp only [ht, if_true, decide_true]
      rw [Counter.count_add, ha.total t]
    · simp only [ht, if_false, decide_false]
      exact ha.total t
  · rw [hemitted, ha.emitted, List.countP_append, List.countP_singleton]
  · intro o ho
    rcases List.mem_append.1 ho with ho | ho
    · exact ha.returned o ho
    · rw [List.mem_singleton.1 ho]
      exact hreturned

end Accounted

theorem accounted_lasting : Lasting (Accounted (σ := σ)) where
  catalog _ ha := ha.congr (fun _ => rfl) rfl
  sink _ ha := ha.congr (fun _ => rfl) rfl
  stop ha := ha.congr (fun _ => rfl) rfl
  completeSnapshot := by
    rintro h l p ha
    rcases completeSnapshot_cases p l with ⟨f, hf⟩ | ⟨_, f, u, _, hf⟩ | ⟨_, u, ns, hok⟩
    · rw [Act.after_of_error hf]
      exact ha
    · rw [Act.after_of_error hf]
      exact ha.congr (fun _ => rfl) (Course.emitted_asked ..)
    · rw [Act.after_of_ok hok]
      exact ha.congr (fun _ => Meters.counter_showing ..) (Course.emitted_asked ..)
  beginStreaming := by
    rintro h l place ha
    rcases beginStreaming_cases place l with ⟨f, hf⟩ | ⟨_, p, ns, hok⟩
    · rw [Act.after_of_error hf]
      exact ha
    · rw [Act.after_of_ok hok]
      exact ha.congr (fun _ => Meters.counter_showing ..) rfl
  offer e hq hopen ha := ha.offer e hq hopen

/-! ## Drains -/

/-- What a request drains, if it does: how far the drain came, and what it offered. -/
def drained (l : Logged (Feed σ)) : Request → List (Drained × List (Offering σ))
  | .drain source =>
    match drain source l with
    | .ok d _ => [(d, offerings l source)]
    | .error .. => []
  | _ => []

/-- All drains among some requests, oldest first. -/
def drains (l : Logged (Feed σ)) : List Request → List (Drained × List (Offering σ))
  | [] => []
  | r :: rest => drained l r ++ drains ((request r).after l) rest

/-- A drain tells how many of its offers ended normally. -/
theorem drains_emitted {rs : List Request} : ∀ {l : Logged (Feed σ)}, ∀ x ∈ drains l rs,
    x.1.emitted = x.2.countP Offering.isReturned := by
  induction rs with
  | nil => intro l x hx; cases hx
  | cons r rest ih =>
    intro l x hx
    rcases List.mem_append.1 hx with hthis | hlater
    · cases r with
      | drain source =>
        obtain ⟨d, t, hdrain, hemitted, _⟩ := drainFrom_account source .start l
        have hdrain : drain source l = .ok d t := hdrain
        rw [drained, hdrain] at hthis
        rw [List.mem_singleton.1 hthis]
        dsimp only
        rw [hemitted, List.countP_congr fun o _ => by rw [isTaken_fate]]
        exact Nat.zero_add _
      | _ => cases hthis
    · exact ih x hlater

/-- Whether a change was taken and not saved. -/
def Offering.isUnsaved (o : Offering σ) : Bool := o.stage = .taken

theorem countP_isTaken (h : List (Offering σ)) : h.countP Offering.isTaken =
    h.countP Offering.isSaved + h.countP Offering.isUnsaved := by
  induction h with
  | nil => rfl
  | cons o rest ih =>
    have hone : (if o.isTaken then 1 else 0) =
        (if o.isSaved then 1 else 0) + (if o.isUnsaved then 1 else 0) := by
      unfold Offering.isTaken Offering.isSaved Offering.isUnsaved
      cases o.stage <;> rfl
    rw [List.countP_cons, List.countP_cons, List.countP_cons, ih, hone]
    omega

/--
**The totals of a feed account for all that was offered to it.**

After any requests to a feed that was opened, whichever of them fail, every offer
to a feed that was not stopped ended normally, or is counted as one of order or
as an error. Each entry that a change came of is counted as assembled, and each
change that the sink took as published: what the sink took is what ended normally
and what was not saved after the sink took it. And the drains that no fault ended
tell together how many of their offers ended normally.
-/
theorem totals_account {S : Type} {o : Options} {store : σ} {sink : Sink LogEntry} {l t : Logged S}
    {f : Feed σ} (h : openOn o store sink l = .ok f t) (hsink : sink.Quiet) {rs : List Request}
    (hrs : ∀ r ∈ rs, r.Quiet) :
    let start : Logged (Feed σ) := ⟨f, t.notices⟩
    let offered := history start rs
    let now := (afterRequests start rs).state
    let whole := (drains start rs).filter fun x => x.1.fault.isNone
    offered.length = offered.countP Offering.isReturned
        + now.meters.outOfOrder.count + now.meters.errors.count
      ∧ now.meters.outOfOrder.count = offered.countP (Offering.failsAs .outOfOrder)
      ∧ now.meters.errors.count = offered.countP (Offering.failsAs .errors)
      ∧ now.meters.assembled.count = offered.countP Offering.isAssembled
      ∧ now.meters.published.count = now.session.emitted.length
      ∧ now.meters.published.count =
          offered.countP Offering.isReturned + offered.countP Offering.isUnsaved
      ∧ (whole.map fun x => x.1.emitted).sum =
          (whole.flatMap fun x => x.2).countP Offering.isReturned := by
  intro start offered now whole
  obtain ⟨hmeters, htrace, _⟩ := openOn_fresh h
  have hbegun : Accounted [] start.state := by
    refine ⟨fun t => ?_, ?_, fun o ho => by cases ho⟩
    · show (f.meters.counter t).count = 0
      rw [hmeters]
      cases t <;> rfl
    · show (f.session.trace.filterMap Event.taken?).length = 0
      rw [htrace]
      rfl
  obtain ⟨_, ha⟩ := accounted_lasting.requests hrs (openOn_quiet h hsink) hbegun
  have hreturned : offered.countP Offering.isReturned = offered.countP Offering.isSaved :=
    List.countP_congr fun o ho => by rw [ha.returned o ho]
  have horder : now.meters.outOfOrder.count = offered.countP (Offering.failsAs .outOfOrder) :=
    ha.total .outOfOrder
  have herrors : now.meters.errors.count = offered.countP (Offering.failsAs .errors) :=
    ha.total .errors
  have hpublished : now.meters.published.count = offered.countP Offering.isTaken :=
    ha.total .published
  refine ⟨?_, horder, herrors, ha.total .assembled, ?_, ?_, ?_⟩
  · rw [horder, herrors]
    exact history_length offered
  · exact hpublished.trans ha.emitted.symm
  · rw [hpublished, hreturned]
    exact countP_isTaken offered
  · have hall : ∀ x ∈ whole, x.1.emitted = x.2.countP Offering.isReturned :=
      fun x hx => drains_emitted x ((List.mem_filter.1 hx).1)
    rw [List.countP_flatMap, List.map_congr_left hall]
    rfl

/-- While the disk is full the change at 11 is taken and not saved; then a drain passes over the one
at 5 and takes the one at 12, and a change to a table that nobody declared is an error. -/
theorem totals_account_for_five :
    let entry (table : Text) (n : Sequence) : LogEntry :=
      ⟨table, .mark (.kind .insert), .known n, none, some (Keyed.ofList [("id", .int n)])⟩
    let options : Options := ⟨"s", false, "skip", some (.known 10), "cdc"⟩
    let disk : Disk := { Disk.empty with plan := ⟨[true], [], []⟩ }
    let store : Mounted := ⟨FileStore.blank ⟨.here, ["resume.json"]⟩ false, disk⟩
    let source : List Arrival := [.item (.entry (entry "t" 5)), .item (.entry (entry "t" 12))]
    let rs : List Request := [.declare (.text "t") (.list [.text "id"]), .offer (entry "t" 11),
      .drain source, .offer (entry "u" 13)]
    let before : Logged Unit := ⟨(), []⟩
    ∃ (f : Feed Mounted) (t : Logged Unit),
      openOn options store (.always .accept) before = .ok f t ∧ (∀ r ∈ rs, r.Quiet)
        ∧ (let now := (afterRequests ⟨f, t.notices⟩ rs).state
          now.meters.outOfOrder.count = 1 ∧ now.meters.errors.count = 2
            ∧ now.meters.assembled.count = 3 ∧ now.meters.published.count = 2) := by
  intro entry options disk store source rs before
  have hquiet : (Sink.always (.accept : Reaction LogEntry)).Quiet := ⟨nofun, trivial⟩
  obtain ⟨f, t, hopen⟩ : ∃ f t, openOn options store (.always .accept) before = .ok f t := ⟨_, _, rfl⟩
  have hrs : ∀ r ∈ rs, r.Quiet := by
    intro r hr
    simp only [rs, List.mem_cons, List.not_mem_nil, or_false] at hr
    rcases hr with rfl | rfl | rfl | rfl
    · trivial
    · trivial
    · intro a ha
      simp only [source, List.mem_cons, List.not_mem_nil, or_false] at ha
      rcases ha with rfl | rfl <;> trivial
    · trivial
  obtain ⟨_, horder, herrors, hassembled, hpublished, _⟩ := totals_account hopen hquiet hrs
  have hcounts : (history ⟨f, t.notices⟩ rs).countP (Offering.failsAs .outOfOrder) = 1
      ∧ (history ⟨f, t.notices⟩ rs).countP (Offering.failsAs .errors) = 2
      ∧ (history ⟨f, t.notices⟩ rs).countP Offering.isAssembled = 3
      ∧ (afterRequests ⟨f, t.notices⟩ rs).state.session.emitted.length = 2 := by
    cases hopen
    decide +kernel
  obtain ⟨h₁, h₂, h₃, h₄⟩ := hcounts
  rw [h₁] at horder
  rw [h₂] at herrors
  rw [h₃] at hassembled
  rw [h₄] at hpublished
  exact ⟨f, t, hopen, hrs, horder, herrors, hassembled, hpublished⟩

end Feed

end Changefeed
