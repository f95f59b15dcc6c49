import Changefeed.Proofs.Checkpoint.Reload
import Changefeed.Proofs.Checkpoint.Rewind

/-!
# Resetting once more after a failure

A reset of a store on a file changes the copy before it replaces the file. If a
file call fails, the copy has been reset and the reset has failed, and whoever
asked for it will ask again. The second reset is held against what the first one
left in the copy, not against what the file still says. So it is refused, as a
reset that does not know what it replaces, unless it is forced or the first one
had nothing to change; where it is not refused, it ends as the first should have.
-/

namespace Changefeed

/-- A reset that was permitted is permitted on what it leaves only if that was there before. -/
theorem Reset.Permitted.again_iff {r : Reset} {q : Position} (h : r.Permitted q) :
    r.Permitted r.goal ↔ q = r.goal := by
  constructor
  · intro hagain
    unfold Reset.Permitted at h hagain
    split at hagain
    · rename_i hgoal
      split at h
      · rename_i hq
        rw [hq, hgoal]
      · rw [hgoal]
        exact hagain q h.1
    · rename_i hgoal
      split at h
      · exact absurd (h _ hagain.1) hgoal
      · exact Option.some.inj (h.1.symm.trans hagain.1)
  · intro hq
    rw [← hq]
    exact h

namespace FileStore

variable {s : FileStore} {m : Logged Mounted} {key : Text} {r : Reset} {d : Disk}

theorem afterReset_again (s : FileStore) (key : Text) (r : Reset) :
    (s.afterReset key r).afterReset key r = s.afterReset key r := by
  have hcorrupt : (s.corrupt.erase key).erase key = s.corrupt.erase key :=
    Keyed.set_set s.corrupt key none
  unfold afterReset
  dsimp only
  rw [hcorrupt, Keyed.set_set]

theorem written?_reset (h : s.refusal? (.reset key r) = none) :
    s.written? (.reset key r) = some (s.afterReset key r) := written?_of_none h

/-- A reset that is not refused changes the copy, whatever comes of the file. -/
theorem reset_store (h : m.state.store.refusal? (.reset key r) = none) :
    ((call (.reset key r)).after m).state.store = m.state.store.afterReset key r := by
  have hstore := answer_store (.reset key r) m
  rw [answer_after, written?_reset h] at hstore
  exact hstore

/-- A reset that is not refused and for which no file call fails puts what it leaves in the file. -/
theorem reset_written (h : s.refusal? (.reset key r) = none)
    (hd : d.failing? s.path s.durable = none) (ns : List Notice) :
    ∃ t, call (.reset key r) ⟨⟨s, d⟩, ns⟩ = .ok () t ∧ t.state.store = s.afterReset key r
      ∧ t.state.disk.content? s.path = some (.text (s.afterReset key r).written) := by
  have hwritten := written?_reset h
  have hfailure : failure? ⟨s, d⟩ (.reset key r) = none := by
    unfold failure?
    rw [hwritten]
    exact hd
  cases call_ending (.reset key r) ⟨⟨s, d⟩, ns⟩ with
  | refused refusal run => cases h.symm.trans refusal
  | needless refusal written run => cases hwritten.symm.trans written
  | replaced refusal written failure run store disk =>
    cases hwritten.symm.trans written
    exact ⟨_, run, store, disk.content?⟩
  | unforced refusal written failure run store disk => cases hfailure.symm.trans failure
  | failed refusal written failure early run store disk => cases hfailure.symm.trans failure

/-- **What a reset left** refuses it a second time, unless it is forced or left what was there. -/
theorem refusal?_afterReset (h : s.refusal? (.reset key r) = none) :
    (s.afterReset key r).refusal? (.reset key r) = none ↔
      r.force = true ∨ s.load key = .ok r.goal := by
  rw [refusal?_reset] at h
  have hagain : (s.afterReset key r).refusal? (.reset key r) =
      (r.refusal? r.goal.known?).map .argument := by
    rw [refusal?_reset, load_afterReset]
    rfl
  rw [hagain, Option.map_eq_none_iff]
  cases hforce : r.force with
  | true => simp [Reset.refusal?, hforce]
  | false =>
    rw [Reset.refusal?_eq_none_iff hforce]
    cases hload : s.load key with
    | error f =>
      rw [hload, hforce] at h
      cases h
    | ok q =>
      rw [hload] at h
      have hpermitted := (Reset.refusal?_eq_none_iff hforce q).1 (Option.map_eq_none_iff.1 h)
      rw [hpermitted.again_iff]
      simp

/-- A reset for which a file call fails fails. -/
theorem reset_fails {step : FileCall} (h : failure? m.state (.reset key r) = some step) :
    (call (.reset key r)).endsWell m = false := by
  obtain ⟨f, hf⟩ := (call_error_iff (.reset key r) m).2 (.inr ⟨step, h⟩)
  exact Act.endsWell_of_error hf

/-- A reset of what the same reset left is refused for the position that it finds there. -/
theorem refused_afterReset {f : Fault}
    (h : (s.afterReset key r).refusal? (.reset key r) = some f) : ∃ cause, f = .argument cause := by
  rw [refusal?_reset, load_afterReset] at h
  obtain ⟨cause, -, hf⟩ := Option.map_eq_some_iff.1 h
  exact ⟨cause, hf.symm⟩

/--
**A reset that failed is made again.**

A reset that is not refused fails because a file call does, any of them. Later it is made
once more, on whatever disk there is by then, with no file call failing. It goes well exactly
if it is forced or the store held the position it asks for to begin with, and then it leaves the
same positions, in the copy and in the file, as the first would have left on any disk on
which no file call had failed. Otherwise it is refused and nothing has changed.
-/
theorem repeated_reset {step : FileCall}
    (hallowed : m.state.store.refusal? (.reset key r) = none)
    (hfails : failure? m.state (.reset key r) = some step) {d d' : Disk}
    (hd : d.failing? m.state.store.path m.state.store.durable = none)
    (hd' : d'.failing? m.state.store.path m.state.store.durable = none) (ns ns' : List Notice) :
    let act := call (.reset key r)
    let again : Logged Mounted := ⟨⟨(act.after m).state.store, d⟩, ns⟩
    let unfailed : Logged Mounted := ⟨⟨m.state.store, d'⟩, ns'⟩
    act.endsWell m = false ∧ act.endsWell unfailed = true
    ∧ (act.endsWell again = true ↔ r.force = true ∨ m.state.store.load key = .ok r.goal)
    ∧ (act.endsWell again = true →
      (act.after again).state.store = (act.after unfailed).state.store
      ∧ (act.after again).state.disk.content? m.state.store.path =
        (act.after unfailed).state.disk.content? m.state.store.path)
    ∧ (act.endsWell again = false → ∃ cause, act again = .error (.argument cause) again) := by
  intro act again unfailed
  have hagain : again = ⟨⟨m.state.store.afterReset key r, d⟩, ns⟩ := by
    show (⟨⟨(act.after m).state.store, d⟩, ns⟩ : Logged Mounted) = _
    rw [reset_store hallowed]
  obtain ⟨u, hu, hustore, hufile⟩ := reset_written hallowed hd' ns'
  refine ⟨reset_fails hfails, Act.endsWell_of_ok hu, ?_⟩
  rw [← refusal?_afterReset hallowed, hagain, Act.after_of_ok hu]
  cases hrefusal : (m.state.store.afterReset key r).refusal? (.reset key r) with
  | none =>
    -- the file is written with what the copy holds already, since resetting it changes nothing
    obtain ⟨t, ht, htstore, htfile⟩ := reset_written hrefusal hd ns
    rw [afterReset_again] at htstore htfile
    rw [Act.endsWell_of_ok ht, Act.after_of_ok ht]
    refine ⟨by simp, fun _ => ⟨htstore.trans hustore.symm, ?_⟩, nofun⟩
    exact Eq.trans htfile hufile.symm
  | some f =>
    have hrun : act ⟨⟨m.state.store.afterReset key r, d⟩, ns⟩ =
        .error f ⟨⟨m.state.store.afterReset key r, d⟩, ns⟩ := call_of_refusal hrefusal
    obtain ⟨cause, rfl⟩ := refused_afterReset hrefusal
    rw [Act.endsWell_of_error hrun]
    exact ⟨by simp, nofun, fun _ => ⟨cause, hrun⟩⟩

/-! ## Two resets of a stream at five -/

/-- A store on a file, with a stream at 5. -/
def storeAtFive : FileStore := (blank ⟨.here, ["resume.json"]⟩ true).put "a" 5

/-- A disk with the file of that store. The next attempt to force something to the medium will
fail. -/
def diskAtFive : Disk where
  nodes := Keyed.empty.insert storeAtFive.path.target (.file (.text storeAtFive.written))
  plan := ⟨[], [true], []⟩
  syncs := 0

/-- The store beside its disk. -/
def atFive : Mounted := ⟨storeAtFive, diskAtFive⟩

theorem denotes_atFive : Denotes atFive := by
  have hsound : storeAtFive.Sound := (Sound.blank ⟨.here, ["resume.json"]⟩ true).set rfl (some 5)
  have hreplaced : Disk.Replaced Disk.empty storeAtFive.path storeAtFive.written diskAtFive :=
    ⟨rfl, nofun, rfl⟩
  exact denotes_replaced (m := atFive) hsound hreplaced

/-- The stream is reset to 3 by force. That fails, and is done when it is asked for once more. -/
theorem forced_reset_repeated :
    let act := call (.reset "a" ⟨none, some (.known 3), true⟩)
    let failed := act.after ⟨atFive, []⟩
    atFive.store.refusal? (.reset "a" ⟨none, some (.known 3), true⟩) = none
    ∧ failure? atFive (.reset "a" ⟨none, some (.known 3), true⟩) = some .syncFile
    ∧ act.endsWell ⟨atFive, []⟩ = false ∧ act.endsWell failed = true
    ∧ (act.after failed).state.store =
      (act.after ⟨⟨atFive.store, Disk.empty⟩, []⟩).state.store := by
  intro act failed
  have hallowed : atFive.store.refusal? (.reset "a" ⟨none, some (.known 3), true⟩) = none := rfl
  have hfails : failure? atFive (.reset "a" ⟨none, some (.known 3), true⟩) = some .syncFile := by
    decide +kernel
  have hworks : failed.state.disk.failing? atFive.store.path atFive.store.durable = none := by
    decide +kernel
  have hempty : Disk.empty.failing? atFive.store.path atFive.store.durable = none := by
    decide +kernel
  obtain ⟨hill, -, hagain, hsame, -⟩ :=
    repeated_reset (m := ⟨atFive, []⟩) hallowed hfails hworks hempty failed.notices []
  have hwell := hagain.2 (.inl rfl)
  exact ⟨hallowed, hfails, hill, hwell, (hsame hwell).1⟩

/-- **A failed reset that cannot be made again.** The file holds what the store knows, and who asks
to reset the stream from 5 to 3 knows where it is. The reset fails, the file still says 5, and
the same reset is refused because it does not expect to find 3, though no file call would fail. -/
theorem refused_after_failure :
    let c : StoreCall := .reset "a" ⟨some (.known 5), some (.known 3), false⟩
    let failed := (call c).after ⟨atFive, []⟩
    Denotes atFive ∧ atFive.store.refusal? c = none ∧ failure? atFive c = some .syncFile
    ∧ (∃ f, call c ⟨atFive, []⟩ = .error f failed)
    ∧ failed.state.disk.content? atFive.store.path = atFive.disk.content? atFive.store.path
    ∧ failed.state.disk.failing? atFive.store.path atFive.store.durable = none
    ∧ call c failed = .error (.argument .resetUnexpected) failed := by
  intro c failed
  have hallowed : atFive.store.refusal? c = none := rfl
  have hfails : failure? atFive c = some .syncFile := by decide +kernel
  have hworks : failed.state.disk.failing? atFive.store.path atFive.store.durable = none := by
    decide +kernel
  have hrefused : failed.state.store.refusal? c = some (.argument .resetUnexpected) := by
    rw [reset_store (m := ⟨atFive, []⟩) hallowed]
    rfl
  obtain ⟨⟨_, -, hcontent⟩, -⟩ := call_atomic c ⟨atFive, []⟩
  refine ⟨denotes_atFive, hallowed, hfails, ?_, ?_, hworks, call_of_refusal hrefused⟩
  · exact (call_error_iff c ⟨atFive, []⟩).2 (.inr ⟨_, hfails⟩)
  · have hkept : replaces atFive c = false := by decide +kernel
    exact hcontent.trans (if_neg (by simp [hkept]))

end FileStore

end Changefeed
