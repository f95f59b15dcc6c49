import Changefeed.Feed.Drain
import Changefeed.Proofs.Change.Assembly
import Changefeed.Proofs.Feed.Offers
import Changefeed.Proofs.Stream.Emission

/-!
# What a drain passes over

Under a policy of skipping, a drain passes over a change whose fault is one of
order, and it goes by the fault alone. A change that comes before the snapshot is
complete has such a fault, and so has one that lies no further than the stream
has come. But so has any change whose sink comes back with a fault of order of
its own, as a sink does that feeds another stream. That change advanced, was
refused, and is passed over all the same (`passed_over_iff`). Every other fault
of the sink ends the drain.
-/

namespace Changefeed

/-! ## Faults of assembling -/

namespace LogEntry

theorem columns_family {catalog : Catalog} {table : Text} {f : Fault}
    (h : catalog.columns table = .error f) : f.family ≠ .order := by
  unfold Catalog.columns at h
  split at h <;> cases h
  simp [Fault.family]

theorem ofValue_family {v : Value} {f : Fault} (h : ChangeKind.ofValue v = .error f) :
    f.family ≠ .order := by
  unfold ChangeKind.ofValue at h
  split at h
  · cases h
  split at h
  · cases h
    simp [Fault.family]
  · split at h <;> cases h
    simp [Fault.family]

theorem alignSide_family {e : LogEntry} {columns : List Text} {side : Side} {f : Fault}
    (h : e.alignSide columns side = .error f) : f.family ≠ .order := by
  unfold alignSide at h
  split at h
  · cases h
  · split at h <;> cases h
    simp [Fault.family]

/-- An entry that cannot be assembled has no fault of order. -/
theorem assemble_family {catalog : Catalog} {e : LogEntry} {f : Fault}
    (h : e.assemble catalog = .error f) : f.family ≠ .order := by
  unfold assemble at h
  rcases Fallible.bind_eq_error h with h | ⟨columns, _, h⟩
  · exact columns_family h
  rcases Fallible.bind_eq_error h with h | ⟨kind, _, h⟩
  · exact ofValue_family h
  split at h
  · cases h
    simp [Fault.family]
  rcases Fallible.bind_eq_error h with h | ⟨before, _, h⟩
  · exact alignSide_family h
  rcases Fallible.bind_eq_error h with h | ⟨after, _, h⟩
  · exact alignSide_family h
  · cases h

/-- An insertion that reports declared columns only is a change. -/
theorem assemble_insert {catalog : Catalog} {table : Text} {columns : List Text} {image : Image}
    (p : Position) (hcolumns : catalog.columns table = .ok columns)
    (hdeclared : ∀ name ∈ image.keys, name ∈ columns) :
    (⟨table, .mark (.kind .insert), p, none, some image⟩ : LogEntry).assemble catalog =
      .ok ⟨table, .insert, p, columns, none, some (align columns image)⟩ := by
  refine assemble_of_declared hcolumns rfl rfl ?_
  rintro (_ | _) _ ⟨⟩
  exact undeclared_eq_nil_iff.2 hdeclared

end LogEntry

namespace Feed

variable {σ α : Type} [CheckpointStore σ]

/-! ## What an offer keeps -/

/-- Whatever an action does to a feed, the policy stays. -/
def KeepsPolicy (act : Act (Feed σ) α) : Prop := ∀ p, Act.Keeps (fun f => f.policy = p) act

namespace KeepsPolicy

omit [CheckpointStore σ] in
theorem onSession (act : Act (Session σ LogEntry) α) : KeepsPolicy (Feed.onSession act) :=
  fun _ => .within fun _ _ h => h

omit [CheckpointStore σ] in
theorem count (t : Tally) : KeepsPolicy (Feed.count (σ := σ) t) := fun _ => .update fun _ h => h

omit [CheckpointStore σ] in
theorem setPosition (p : Position) : KeepsPolicy (Feed.setPosition (σ := σ) p) :=
  fun _ => .update fun _ h => h

theorem completeSnapshot (p : Position) : KeepsPolicy (Feed.completeSnapshot (σ := σ) p) :=
  fun q => .bind (onSession _ q) fun _ => setPosition p q

theorem handOver {react : Change → Act (Feed σ) Unit} (h : ∀ c, KeepsPolicy (react c))
    (c : Change) : KeepsPolicy (Feed.handOver react c) :=
  fun q => .bind (onSession _ q) fun _ => .bind (h c q) fun _ =>
    .bind (onSession _ q) fun _ => count _ q

theorem deliver {hand : Change → Act (Feed σ) Unit} (h : ∀ c, KeepsPolicy (hand c))
    (e : LogEntry) : KeepsPolicy (Feed.deliver hand e) := by
  intro q
  refine .bind .state fun f => ?_
  dsimp only
  split
  · exact .fail _
  refine .bind (.onFault ?_ fun f => count _ q) fun c => .bind (setPosition _ q) fun _ => .pure _
  exact .bind .state fun f => .bind (.ofExcept _) fun c => .bind (count _ q) fun _ =>
    .bind (onSession _ q) fun _ => .bind (h c q) fun _ => .bind (onSession _ q) fun _ => .pure _

/-- A reaction keeps the policy, however deep its offers nest. -/
theorem carryOut (r : Reaction LogEntry) :
    ∀ c, KeepsPolicy (r.carryOut (callbacks (σ := σ)) c) := by
  induction r with
  | accept => exact fun _ _ => .pure ()
  | refuse f => exact fun _ _ => .fail f
  | stop next ih => exact fun c q => .bind (onSession _ q) fun _ => ih c q
  | completeSnapshot next ih =>
    exact fun c q => .bind (completeSnapshot _ q) fun _ => ih c q
  | offer more inner next ihInner ihNext =>
    intro c q
    have hoffer : KeepsPolicy (discard (Feed.deliver (Feed.handOver (inner.carryOut callbacks))
        more) : Act (Feed σ) Unit) := fun q =>
      .bind (deliver (handOver ihInner) more q) fun _ => .pure ()
    exact .bind (.outcome (hoffer q)) fun ended => ihNext ended c q

theorem offer (e : LogEntry) : KeepsPolicy (Feed.offer (σ := σ) e) :=
  deliver (handOver fun c q => .bind (onSession _ q) fun r => carryOut r c q) e

theorem take (i : Item) : KeepsPolicy (Feed.take (σ := σ) i) := by
  intro q
  cases i with
  | snapshot p => exact .bind (completeSnapshot p q) fun _ => .pure 0
  | entry e =>
    refine .bind (.outcome (offer e q)) fun ended => ?_
    cases ended with
    | ok c => exact .pure 1
    | error f =>
      refine .bind .state fun l => ?_
      split
      · exact .bind (.note _) fun _ => .pure 0
      · exact .fail f

omit [CheckpointStore σ] in
theorem letHappen (a : Aside) : KeepsPolicy (Feed.letHappen (σ := σ) a) := by
  intro q
  cases a with
  | declare table columns =>
    unfold Feed.letHappen onCatalog
    exact .within fun _ _ h => h
  | stop => exact onSession _ q
  | sink k => exact onSession _ q

end KeepsPolicy

theorem offer_policy (e : LogEntry) (l : Logged (Feed σ)) :
    ((offer e).after l).state.policy = l.state.policy :=
  KeepsPolicy.offer e l.state.policy l rfl

/-! ## One offering -/

/-- A log entry that a drain offers, and the feed as it is then. -/
structure Offering (σ : Type) where
  feed : Logged (Feed σ)
  entry : LogEntry

/-- What becomes of an entry that a drain offers. -/
inductive Fate where
  | taken
  /-- The drain goes on without it. -/
  | passedOver
  /-- The drain ends with a fault. -/
  | raised (f : Fault)

/-- Whether an entry was taken. -/
def Fate.isTaken : Fate → Bool
  | taken => true
  | _ => false

/-- What becomes of an offering in a drain. -/
def Offering.fate (o : Offering σ) : Fate :=
  match take (.entry o.entry) o.feed with
  | .ok 0 _ => .passedOver
  | .ok _ _ => .taken
  | .error f _ => .raised f

theorem take_entry_run (e : LogEntry) (l : Logged (Feed σ)) :
    take (.entry e) l = match offer e l with
      | .ok _ t => .ok 1 t
      | .error f t =>
        if t.state.skips f then .ok 0 ⟨t.state, t.notices ++ [.skipped f]⟩ else .error f t := by
  rw [take, Act.outcome_bind]
  cases offer e l with
  | ok c t => rfl
  | error f t =>
    dsimp only
    rw [Act.state_bind]
    split <;> rfl

/-- An offering that fails is passed over by its fault alone. -/
theorem Offering.fate_eq (o : Offering σ) :
    o.fate = match (offer o.entry).result o.feed with
      | .ok _ => .taken
      | .error f =>
        if o.feed.state.policy = .skip ∧ f.family = .order then .passedOver else .raised f := by
  have hpolicy := offer_policy o.entry o.feed
  unfold fate Act.result
  rw [take_entry_run]
  cases hoffer : offer o.entry o.feed with
  | ok c t => rfl
  | error f t =>
    rw [Act.after_of_error hoffer] at hpolicy
    dsimp only
    unfold skips
    rw [hpolicy]
    by_cases hskip : o.feed.state.policy = .skip ∧ f.family = .order
    · simp [hskip]
    · rw [if_neg hskip, if_neg (by simpa using hskip)]

/-- What the offer of an entry ends with. -/
def Offering.result (o : Offering σ) : Except Fault Change := (offer o.entry).result o.feed

/-- Whether the offer ends normally. -/
def Offering.isReturned (o : Offering σ) : Bool := o.result.toBool

/-- A drain goes on to count a change as taken exactly if the offer ended normally. -/
theorem isTaken_fate (o : Offering σ) : o.fate.isTaken = o.isReturned := by
  have hresult : (offer o.entry).result o.feed = o.result := rfl
  unfold Offering.isReturned
  rw [Offering.fate_eq, hresult]
  cases o.result with
  | ok c => rfl
  | error f =>
    dsimp only
    split <;> rfl

omit [CheckpointStore σ] in
/-- What a stream refuses before it is stopped, it refuses for its order. -/
theorem refusal?_order {s : Session σ LogEntry} {c : Change} {f : Fault}
    (h : s.refusal? c = some f) (hopen : s.phase ≠ .stopped) :
    f.family = .order ∧ (s.phase = .snapshotting ∨ c.position ≤ s.reached) := by
  unfold Session.refusal? at h
  cases hp : s.phase with
  | stopped => exact absurd hp hopen
  | snapshotting =>
    rw [hp] at h
    cases h
    exact ⟨rfl, .inl rfl⟩
  | streaming =>
    rw [hp] at h
    dsimp only at h
    split at h
    · rename_i hle
      cases h
      exact ⟨rfl, .inr hle⟩
    · cases h

section Skipping

variable {o : Offering σ} (hpolicy : o.feed.state.policy = .skip)
  (hopen : o.feed.state.session.phase ≠ .stopped)

include hpolicy hopen

/-- A change that advances the stream has the fate that the fault of its sink, or of its store,
gives it. -/
theorem Offering.fate_of_ahead {c : Change} (hc : o.entry.assemble o.feed.state.catalog = .ok c)
    (hahead : o.feed.state.session.refusal? c = none) :
    o.fate = match failure? c o.feed with
      | none => .taken
      | some f => if f.family = .order then .passedOver else .raised f := by
  rw [Offering.fate_eq, offer_result _ hopen, hpolicy, hc]
  dsimp only
  rw [hahead]
  cases failure? c o.feed with
  | none => rfl
  | some f => simp

/-- **What is passed over** did not advance the stream, or its sink or its store ended with a fault
of order. -/
theorem Offering.passedOver_iff :
    o.fate = .passedOver ↔ ∃ c, o.entry.assemble o.feed.state.catalog = .ok c
      ∧ (o.feed.state.session.phase = .snapshotting
        ∨ c.position ≤ o.feed.state.session.reached
        ∨ ∃ f, failure? c o.feed = some f ∧ f.family = .order) := by
  cases hc : o.entry.assemble o.feed.state.catalog with
  | error f =>
    -- no change comes of the entry, and that is no fault of order
    rw [Offering.fate_eq, offer_result _ hopen, hc]
    simp [LogEntry.assemble_family hc]
  | ok c =>
    cases hr : o.feed.state.session.refusal? c with
    | some f =>
      obtain ⟨horder, hbehind⟩ := refusal?_order hr hopen
      have hpassed : o.fate = .passedOver := by
        rw [Offering.fate_eq, offer_result _ hopen, hpolicy, hc]
        dsimp only
        rw [hr]
        simp [horder]
      refine ⟨fun _ => ⟨c, rfl, ?_⟩, fun _ => hpassed⟩
      rcases hbehind with hearly | hle
      · exact .inl hearly
      · exact .inr (.inl hle)
    | none =>
      obtain ⟨hstreaming, hlt⟩ := Session.refusal?_eq_none.1 hr
      rw [Offering.fate_of_ahead hpolicy hopen hc hr]
      constructor
      · intro hpassed
        cases hf : failure? c o.feed with
        | none =>
          rw [hf] at hpassed
          cases hpassed
        | some f =>
          rw [hf] at hpassed
          dsimp only at hpassed
          split at hpassed
          · rename_i horder
            exact ⟨c, rfl, .inr (.inr ⟨f, hf, horder⟩)⟩
          · cases hpassed
      · rintro ⟨_, hsame, hearly | hle | ⟨f, hf, horder⟩⟩ <;> cases hsame
        · rw [hstreaming] at hearly
          cases hearly
        · exact absurd hle (not_le.2 hlt)
        · rw [hf]
          exact if_pos horder

end Skipping

/-! ## A whole drain -/

/-- What a drain offers of an item. -/
def offered (l : Logged (Feed σ)) : Item → List (Offering σ)
  | .entry e => [⟨l, e⟩]
  | .snapshot _ => []

/-- What a drain of a source offers, one after the other. -/
def offerings (l : Logged (Feed σ)) : List Arrival → List (Offering σ)
  | [] | .broken _ :: _ | .unreadable _ :: _ => []
  | .aside a :: rest =>
    match letHappen a l with
    | .ok _ t => offerings t rest
    | .error .. => []
  | .item i :: rest =>
    if l.state.session.isStopped then []
    else
      let later := match take i l with
        | .ok _ t => offerings t rest
        | .error .. => []
      match i with
      | .entry e => ⟨l, e⟩ :: later
      | .snapshot _ => later

section Item

variable {l : Logged (Feed σ)} (hopen : l.state.session.phase ≠ .stopped)

include hopen

theorem drainFrom_item (d : Drained) (i : Item) (rest : List Arrival) :
    drainFrom d (.item i :: rest) l = match take i l with
      | .ok n t => drainFrom (d.pull.emit n) rest t
      | .error f t => .ok (d.pull.fail f) t := by
  have hnot : ¬l.state.session.isStopped = true := fun h => hopen (of_decide_eq_true h)
  rw [drainFrom, Act.state_bind, if_neg hnot, Act.outcome_bind]
  cases take i l with
  | ok n t => rfl
  | error f t => rfl

theorem offerings_item (i : Item) (rest : List Arrival) :
    offerings l (.item i :: rest) = offered l i ++ match take i l with
      | .ok _ t => offerings t rest
      | .error .. => [] := by
  have hnot : ¬l.state.session.isStopped = true := fun h => hopen (of_decide_eq_true h)
  rw [offerings, if_neg hnot]
  cases i with
  | entry e => rfl
  | snapshot p => rfl

end Item

/-- A drain offers only to a feed that is not stopped, and never changes its policy. -/
theorem offerings_open {source : List Arrival} :
    ∀ {l : Logged (Feed σ)} {o : Offering σ}, o ∈ offerings l source →
      o.feed.state.policy = l.state.policy ∧ o.feed.state.session.phase ≠ .stopped := by
  induction source with
  | nil => intro l o ho; cases ho
  | cons a rest ih =>
    intro l o ho
    cases a with
    | broken f => cases ho
    | unreadable f => cases ho
    | aside a =>
      have hpolicy := KeepsPolicy.letHappen a l.state.policy l rfl
      rw [offerings] at ho
      cases hrun : letHappen a l with
      | error f t => rw [hrun] at ho; cases ho
      | ok u t =>
        rw [hrun] at ho
        rw [Act.after_of_ok hrun] at hpolicy
        exact hpolicy ▸ ih ho
    | item i =>
      have hpolicy := KeepsPolicy.take i l.state.policy l rfl
      by_cases hstopped : l.state.session.isStopped = true
      · rw [offerings, if_pos hstopped] at ho
        cases ho
      have hopen : l.state.session.phase ≠ .stopped := fun h => hstopped (decide_eq_true h)
      rw [offerings_item hopen] at ho
      rcases List.mem_append.1 ho with hthis | hlater
      · cases i with
        | snapshot p => cases hthis
        | entry e =>
          rw [List.mem_singleton.1 hthis]
          exact ⟨rfl, hopen⟩
      · cases hrun : take i l with
        | error f t => rw [hrun] at hlater; cases hlater
        | ok n t =>
          rw [hrun] at hlater
          rw [Act.after_of_ok hrun] at hpolicy
          exact hpolicy ▸ ih hlater

/-- A fault is raised exactly if taking the item ends with it. -/
theorem offered_raised_iff {l : Logged (Feed σ)} {i : Item} {o : Offering σ} {f : Fault}
    (ho : o ∈ offered l i) : o.fate = .raised f ↔ ∃ t, take i l = .error f t := by
  cases i with
  | snapshot p => cases ho
  | entry e =>
    obtain rfl : o = ⟨l, e⟩ := List.mem_singleton.1 ho
    unfold Offering.fate
    cases take (.entry e) l with
    | error g t => simp
    | ok n t => cases n <;> simp

/-- An item counts for as many changes as were taken of it. -/
theorem take_count {l t : Logged (Feed σ)} {i : Item} {n : Nat} (h : take i l = .ok n t) :
    n = (offered l i).countP (·.fate.isTaken) := by
  cases i with
  | snapshot p =>
    obtain ⟨_, u, _, hn⟩ := Act.bind_eq_ok.1 h
    cases hn
    rfl
  | entry e =>
    show n = [Offering.mk l e].countP (·.fate.isTaken)
    rw [List.countP_singleton]
    unfold Offering.fate
    rw [h]
    rw [take_entry_run] at h
    cases hoffer : offer e l with
    | ok c u => rw [hoffer] at h; cases h; rfl
    | error f u =>
      rw [hoffer] at h
      dsimp only at h
      split at h <;> cases h
      rfl

/-- A drain tells how many changes were taken, and which fault ended it. -/
theorem drainFrom_account (source : List Arrival) :
    ∀ (d : Drained) (l : Logged (Feed σ)), ∃ d' t, drainFrom d source l = .ok d' t
      ∧ d'.emitted = d.emitted + (offerings l source).countP (·.fate.isTaken)
      ∧ ∀ o ∈ offerings l source, ∀ f, o.fate = .raised f → d'.fault = some f := by
  induction source with
  | nil => intro d l; exact ⟨d, l, rfl, rfl, fun o ho => by cases ho⟩
  | cons a rest ih =>
    intro d l
    cases a with
    | broken f => exact ⟨_, l, rfl, rfl, fun o ho => by cases ho⟩
    | unreadable f => exact ⟨_, l, rfl, rfl, fun o ho => by cases ho⟩
    | aside a =>
      rw [drainFrom, offerings, Act.outcome_bind]
      cases letHappen a l with
      | error f t => exact ⟨_, t, rfl, rfl, fun o ho => by cases ho⟩
      | ok u t => exact ih d t
    | item i =>
      by_cases hstopped : l.state.session.isStopped = true
      · rw [drainFrom, offerings, Act.state_bind, if_pos hstopped, if_pos hstopped]
        exact ⟨_, _, rfl, rfl, fun o ho => by cases ho⟩
      have hopen : l.state.session.phase ≠ .stopped := fun h => hstopped (decide_eq_true h)
      rw [drainFrom_item hopen, offerings_item hopen]
      cases hrun : take i l with
      | error f t =>
        refine ⟨d.pull.fail f, t, rfl, ?_, ?_⟩
        · have hnone : (offered l i).countP (·.fate.isTaken) = 0 := by
            refine List.countP_eq_zero.2 fun o ho => ?_
            rw [(offered_raised_iff ho).2 ⟨t, hrun⟩]
            simp [Fate.isTaken]
          rw [List.append_nil, hnone]
          rfl
        · intro o ho g hg
          rw [List.append_nil] at ho
          obtain ⟨v, hraised⟩ := (offered_raised_iff ho).1 hg
          cases hrun.symm.trans hraised
          rfl
      | ok n t =>
        obtain ⟨d', u, hdrain, hemitted, hfault⟩ := ih (d.pull.emit n) t
        refine ⟨d', u, hdrain, ?_, ?_⟩
        · have hpulled : (d.pull.emit n).emitted = d.emitted + n := rfl
          rw [hemitted, hpulled, take_count hrun, List.countP_append, Nat.add_assoc]
        · intro o ho g hg
          rcases List.mem_append.1 ho with hthis | hlater
          · obtain ⟨v, hraised⟩ := (offered_raised_iff hthis).1 hg
            cases hrun.symm.trans hraised
          · exact hfault o hlater g hg

/--
**What a drain under a policy of skipping passes over.**

The drain comes to an end, tells how many of the offered entries were taken, and
ends with the fault of any that raised one. An offered entry is passed over
exactly if a change comes of it that either does not advance the stream, because
the stream still waits for its snapshot or has come at least as far, or does and
has its sink, or the store after that, end with a fault of order. A change that
advances and whose sink or store fails is passed over if the fault is one of
order, whatever its cause, and otherwise ends the drain with that fault.
-/
theorem passed_over_iff {l : Logged (Feed σ)} (hp : l.state.policy = .skip)
    (source : List Arrival) :
    (∃ d t, drain source l = .ok d t
        ∧ d.emitted = (offerings l source).countP (·.fate.isTaken)
        ∧ ∀ o ∈ offerings l source, ∀ f, o.fate = .raised f → d.fault = some f)
      ∧ ∀ o ∈ offerings l source,
        (o.fate = .passedOver ↔ ∃ c, o.entry.assemble o.feed.state.catalog = .ok c
          ∧ (o.feed.state.session.phase = .snapshotting
            ∨ c.position ≤ o.feed.state.session.reached
            ∨ ∃ f, failure? c o.feed = some f ∧ f.family = .order))
        ∧ ∀ c f, o.entry.assemble o.feed.state.catalog = .ok c →
            o.feed.state.session.refusal? c = none → failure? c o.feed = some f →
            o.fate = if f.family = .order then .passedOver else .raised f := by
  refine ⟨?_, ?_⟩
  · obtain ⟨d, t, hdrain, hemitted, hfault⟩ := drainFrom_account source .start l
    exact ⟨d, t, hdrain, by rw [hemitted]; exact Nat.zero_add _, hfault⟩
  · intro o ho
    obtain ⟨hpolicy, hopen⟩ := offerings_open ho
    rw [hp] at hpolicy
    refine ⟨Offering.passedOver_iff hpolicy hopen, ?_⟩
    intro c f hc hahead hf
    rw [Offering.fate_of_ahead hpolicy hopen hc hahead, hf]

/-- A change at 5 that comes to a stream at 10 is passed over, and the one at 11 after it is taken. -/
theorem late_change_passed_over :
    let entry (n : Sequence) : LogEntry :=
      ⟨"t", .mark (.kind .insert), .known n, none, some (Keyed.ofList [("id", .int n)])⟩
    let session : Session MemoryStore LogEntry :=
      { Session.waiting "s" MemoryStore.empty (some (.always .accept)) with
        phase := .streaming, reached := .known 10 }
    let l : Logged (Feed MemoryStore) :=
      ⟨⟨⟨Keyed.ofList [(.text "t", ⟨.text "t", ["id"]⟩)]⟩, .start "cdc", .skip, none, session⟩, []⟩
    let source : List Arrival := [.item (.entry (entry 5)), .item (.entry (entry 11))]
    l.state.policy = .skip ∧ Offering.fate ⟨l, entry 5⟩ = .passedOver
      ∧ ∃ d t, drain source l = .ok d t ∧ d.emitted = 1 := by
  intro entry session l source
  have hpolicy : l.state.policy = .skip := rfl
  obtain ⟨⟨d, t, hdrain, hemitted, _⟩, hfates⟩ := passed_over_iff hpolicy source
  obtain ⟨hiff, _⟩ := hfates ⟨l, entry 5⟩ List.mem_cons_self
  have hc : (entry 5).assemble l.state.catalog =
      .ok ⟨"t", .insert, .known 5, ["id"], none, some [.int 5]⟩ :=
    LogEntry.assemble_insert _ rfl (by decide)
  have hle : Position.known 5 ≤ l.state.session.reached := by decide
  have hcount : (offerings l source).countP (·.fate.isTaken) = 1 := by decide +kernel
  exact ⟨hpolicy, hiff.2 ⟨_, hc, .inr (.inl hle)⟩, d, t, hdrain, hemitted.trans hcount⟩

/-- The change at 11 advances a stream at 10, its sink refuses it with a fault of order, and the
drain goes on to the change at 12 without it. -/
theorem advancing_change_passed_over :
    let entry (n : Sequence) : LogEntry :=
      ⟨"t", .mark (.kind .insert), .known n, none, some (Keyed.ofList [("id", .int n)])⟩
    let unfit : Fault := .reported .order "sink rejected order"
    let k : Sink LogEntry := ⟨[.refuse unfit], .accept⟩
    let session : Session MemoryStore LogEntry :=
      { Session.waiting "s" MemoryStore.empty (some k) with phase := .streaming, reached := .known 10 }
    let l : Logged (Feed MemoryStore) :=
      ⟨⟨⟨Keyed.ofList [(.text "t", ⟨.text "t", ["id"]⟩)]⟩, .start "cdc", .skip, none, session⟩, []⟩
    let source : List Arrival := [.item (.entry (entry 11)), .item (.entry (entry 12))]
    (∃ o ∈ offerings l source, ∃ c, o.entry.assemble o.feed.state.catalog = .ok c
        ∧ o.feed.state.session.phase = .streaming ∧ o.feed.state.session.reached < c.position
        ∧ (∃ u, handing c o.feed = .error unfit u) ∧ o.fate = .passedOver)
      ∧ ∃ d t, drain source l = .ok d t ∧ d.emitted = 1 ∧ d.fault = none
        ∧ t.state.session.emitted = [.known 12] := by
  intro entry unfit k session l source
  let c : Change := ⟨"t", .insert, .known 11, ["id"], none, some [.int 11]⟩
  have hc : (entry 11).assemble l.state.catalog = .ok c :=
    LogEntry.assemble_insert _ rfl (by decide)
  have hahead : l.state.session.reached < c.position := by decide
  have hdeclined : ∃ u, handing c l = .error unfit u := ⟨_, rfl⟩
  have hfails : failure? c l = some unfit := rfl
  have hfate : Offering.fate ⟨l, entry 11⟩ = .passedOver :=
    (Offering.passedOver_iff rfl (fun h => by cases h)).2 ⟨c, hc, .inr (.inr ⟨unfit, hfails, rfl⟩)⟩
  obtain ⟨d, t, hdrain, _⟩ := drainFrom_account source .start l
  have hends : (match drainFrom .start source l with
      | .ok d t => decide (d.emitted = 1) && d.fault.isNone
          && decide (t.state.session.emitted = [.known 12])
      | .error .. => false) = true := by decide +kernel
  rw [hdrain] at hends
  simp only [Bool.and_eq_true, decide_eq_true_eq, Option.isNone_iff_eq_none] at hends
  obtain ⟨⟨hemitted, hfault⟩, htaken⟩ := hends
  exact ⟨⟨⟨l, entry 11⟩, List.mem_cons_self, c, hc, rfl, hahead, hdeclined, hfate⟩,
    d, t, hdrain, hemitted, hfault, htaken⟩

end Feed

end Changefeed
