import Changefeed.Proofs.Checkpoint.Cells

/-!
# Rewinding a stream

A reset without force is for rewinding a stream by hand: whoever asks for it names
the position that they replace, and may not name one beyond it. Of a stream that
has a position this holds. Of one that has none only the first half is asked, that
no position was named to replace; then any position may be put in, and the stream
moves forward, past changes that were never emitted (`forward_of_nothing`).
-/

namespace Changefeed

namespace Reset

/-- The position that a reset leaves. -/
def goal (r : Reset) : Position := .ofKnown r.sequence?

/-- Whether a reset without force is allowed to replace `q`. -/
def Permitted (r : Reset) (q : Position) : Prop :=
  if q = .null then ∀ p ∈ r.expected, p = .null else r.expected = some q ∧ r.goal ≤ q

theorem goal_le_known_iff {r : Reset} {n : Sequence} :
    r.goal ≤ .known n ↔ r.sequence?.any (n < ·) = false := by
  unfold goal
  cases r.sequence? with
  | none => simp [Position.ofKnown]
  | some k => simp [Position.ofKnown]

theorem refusal?_eq_none_iff {r : Reset} (hforce : r.force = false) (q : Position) :
    r.refusal? q.known? = none ↔ r.Permitted q := by
  unfold refusal? Permitted
  rw [hforce]
  cases q with
  | null =>
    dsimp only [Position.known?]
    rw [if_pos rfl]
    cases r.expected with
    | none => simp
    | some p => cases p <;> simp [Position.isKnown]
  | known n =>
    dsimp only [Position.known?]
    rw [if_neg (by simp), goal_le_known_iff]
    by_cases hexpected : r.expected = some (.known n)
    · simp [hexpected]
    · simp [hexpected]

/-- A reset that is permitted takes a stream no further if there was a position to begin with, and
otherwise if it leaves none. -/
theorem Permitted.goal_le_iff {r : Reset} {q : Position} (h : r.Permitted q) :
    r.goal ≤ q ↔ q ≠ .null ∨ r.goal = .null := by
  unfold Permitted at h
  split at h
  · rename_i hq
    rw [hq]
    exact ⟨fun hle => .inr (le_antisymm hle (Position.null_le _)),
      fun h => (h.resolve_left (· rfl)).le⟩
  · rename_i hq
    exact ⟨fun _ => .inl hq, fun _ => h.2⟩

end Reset

namespace Host

/--
**A reset without force** of a stream whose entry is not corrupt, with no file call
failing. It goes well exactly if it is permitted; then the stream is at the position
asked for, or has none, and that is no further than before exactly if there was a
position before or there is none now. If it is refused, the host is as it was, disk
and all. The other streams are where they were in any case.
-/
theorem unforced_reset {h : Logged Host} {key : Text} {r : Reset} {q : Position}
    (hforce : r.force = false) (hload : h.state.load key = .ok q)
    (hfail : h.state.failure? (.reset key r) = none) :
    (r.Permitted q ∧ (answer (.reset key r)).result h = .ok none
        ∧ ((answer (.reset key r)).after h).state.load key = .ok r.goal
        ∧ (r.goal ≤ q ↔ q ≠ .null ∨ r.goal = .null)
      ∨ ¬r.Permitted q
        ∧ (∃ cause, (answer (.reset key r)).result h = .error (.argument cause))
        ∧ ((answer (.reset key r)).after h).state = h.state)
    ∧ ∀ key', key' ≠ key →
      ((answer (.reset key r)).after h).state.load key' = h.state.load key' := by
  have hresult := result_answer hfail
  refine ⟨?_, fun key' hne => Celled.others (.reset key r) h key' (Ne.symm hne)⟩
  cases hrefusal : r.refusal? q.known? with
  | none =>
    have hpermitted := (Reset.refusal?_eq_none_iff hforce q).1 hrefusal
    have hverdict : (StoreCall.reset key r).verdict (h.state.load key) = .ok none :=
      hload ▸ StoreCall.verdict_reset_of_none hrefusal
    refine .inl ⟨hpermitted, hresult.trans hverdict, ?_, hpermitted.goal_le_iff⟩
    exact (Celled.own (.reset key r) h).trans (StoreCall.leaves_of_reset hverdict)
  | some cause =>
    have hverdict : (StoreCall.reset key r).verdict (h.state.load key) =
        .error (.argument cause) := hload ▸ StoreCall.verdict_reset_of_some hrefusal
    refine .inr ⟨fun hpermitted => ?_, ⟨cause, hresult.trans hverdict⟩,
      answer_after_of_refused hverdict⟩
    rw [(Reset.refusal?_eq_none_iff hforce q).2 hpermitted] at hrefusal
    cases hrefusal

/-- A stream at 500 in a file is rewound to 120; beside it the file has an entry that denotes no
position. -/
theorem rewound_beside_corrupt_entry :
    let store : FileStore := ⟨⟨.here, ["resume.json"]⟩, true, Keyed.ofList [("a", 500)],
      Keyed.ofList [("b", .text "oops")]⟩
    let h : Logged Host := ⟨⟨Disk.empty, .file store⟩, []⟩
    let r : Reset := ⟨some (.known 500), some (.known 120), false⟩
    h.state.load "a" = .ok (.known 500) ∧ h.state.failure? (.reset "a" r) = none
      ∧ (answer (.reset "a" r)).result h = .ok none
      ∧ ((answer (.reset "a" r)).after h).state.load "a" = .ok (.known 120)
      ∧ ((answer (.reset "a" r)).after h).state.load "b" = h.state.load "b" := by
  intro store h r
  have hload : h.state.load "a" = .ok (.known 500) := rfl
  have hfail : h.state.failure? (.reset "a" r) = none := by decide +kernel
  obtain ⟨hcases, hothers⟩ := unforced_reset (r := r) rfl hload hfail
  have hpermitted : r.Permitted (.known 500) := ⟨rfl, by decide⟩
  rcases hcases with ⟨-, hresult, hgoal, -⟩ | ⟨hnot, -⟩
  · exact ⟨hload, hfail, hresult, hgoal, hothers "b" (by decide)⟩
  · exact absurd hpermitted hnot

/-- A stream without a position is moved forward to 5, with no position named to replace and without
force. -/
theorem forward_of_nothing :
    let h : Logged Host := ⟨⟨Disk.empty, .memory MemoryStore.empty⟩, []⟩
    let r : Reset := ⟨none, some (.known 5), false⟩
    h.state.load "a" = .ok .null ∧ h.state.failure? (.reset "a" r) = none
      ∧ (answer (.reset "a" r)).result h = .ok none
      ∧ ((answer (.reset "a" r)).after h).state.load "a" = .ok (.known 5)
      ∧ Position.null < .known 5 :=
  ⟨rfl, rfl, rfl, rfl, Position.null_lt_known 5⟩

end Host

end Changefeed
