import Changefeed.Proofs.Checkpoint.Cells
import Changefeed.Proofs.Checkpoint.Quarantine

/-!
# Saves form a maximum

As long as a store is only saved to, and opened again, what it loads for a stream
is the furthest of where the stream was and all that was saved for it. So the order
of the saves makes no difference, nor does saving a position twice, nor what is saved
for other streams in between. On a file this takes that no file call fails.

When file calls fail, the copy and the file part. What holds then is that the file
lags behind: what it records of a stream was there at the start or was saved for it,
is no further than what the copy knows, and never goes back. A flush writes all that
the copy knows, the positions of other streams that could not be written earlier
included; opening the file again lets the copy fall back to what the file records.
-/

namespace Changefeed

/-- Whether a use saves a position or opens the file again. -/
def Use.Saves : Use → Prop
  | .call (.save ..) | .reopen _ => True
  | .call (.load _) | .call (.reset ..) => False

/-- The position that a use saves for a stream, if it does. -/
def Use.saved? (key : Text) : Use → Option Position
  | .call (.save k p) => if k = key then some p else none
  | _ => none

/-- The positions that are saved for a stream, in the order of the saves. -/
def saved (key : Text) (uses : List Use) : List Position := uses.filterMap (Use.saved? key)

/-- Two sequences of saves and openings that save the same positions for a stream, in whatever
order and however often, with anything in between that is saved for others. -/
structure SameSaves (key : Text) (uses uses' : List Use) : Prop where
  saves : ∀ u ∈ uses', u.Saves
  same : ∀ p, p ∈ saved key uses' ↔ p ∈ saved key uses

/-- Only what was saved counts for the furthest, not in which order and how often. -/
theorem SameSaves.furthest {key : Text} {uses uses' : List Use} (h : SameSaves key uses uses')
    (q : Position) : (saved key uses').foldl max q = (saved key uses).foldl max q := by
  refine eq_of_forall_ge_iff fun x => ?_
  rw [foldl_max_le, foldl_max_le]
  exact and_congr_right fun _ => forall_congr' fun p => imp_congr_left (h.same p)

theorem saved_own {k key : Text} (h : k = key) (p : Position) :
    saved key [.call (.save k p)] = [p] :=
  List.filterMap_cons_some (f := Use.saved? key) (if_pos h)

theorem saved_other {k key : Text} (h : k ≠ key) (p : Position) :
    saved key [.call (.save k p)] = [] :=
  List.filterMap_cons_none (f := Use.saved? key) (if_neg h)

/-- What a save leaves of a stream, in any store. -/
theorem load_save {σ : Type} [CheckpointStore σ] [Celled σ] {s : Logged σ} {key : Text}
    {q : Position} (h : CheckpointStore.load s.state key = .ok q) (k : Text) (p : Position) :
    CheckpointStore.load ((answer (.save k p)).after s).state key =
      .ok ((saved key [.call (.save k p)]).foldl max q) := by
  by_cases hk : k = key
  · have hown := Celled.own (.save k p) s
    rw [show (StoreCall.save k p).key = key from hk, h] at hown
    rw [hown, saved_own hk]
    rfl
  · rw [Celled.others (.save k p) s key hk, h, saved_other hk]
    rfl

namespace FileStore

variable {path : Path} {key : Text} {m : Logged Mounted} {r l : Position}

/-- The stream is at `r` in the file and at `l` in the copy. -/
structure Stands (path : Path) (key : Text) (r l : Position) (m : Mounted) : Prop where
  opened : Opened path m
  file : recorded path key m.disk = .ok r
  copy : m.store.load key = .ok l

theorem Stands.reopened (h : Stands path key r l m.state) :
    FileStore.reopened path key m.state.disk = .ok r :=
  (reopened_of_ready h.opened.ready key).trans h.file

/-- A call brings the file in step with the copy or leaves it as it was. If no file call fails, it
leaves the file only where it leaves the copy. -/
theorem Opened.call_disk (h : Opened path m.state) (c : StoreCall) :
    InStep path ((FileStore.call c).after m).state
      ∨ ((FileStore.call c).after m).state.disk.nodes = m.state.disk.nodes
        ∧ (failure? m.state c = none →
          ((FileStore.call c).after m).state.store = m.state.store) := by
  have ho := h.call c
  have hwritten : ∀ {t : Logged Mounted} {s : FileStore}, Opened path t.state →
      t.state.store = s → Disk.Replaced m.state.disk s.path s.written t.state.disk →
      InStep path t.state := by
    rintro t _ ht rfl hreplaced key q
    rw [ht.onPath] at hreplaced
    exact recorded_of_written ht.sound hreplaced.contentAt key q
  cases call_ending c m with
  | refused refusal run =>
    rw [Act.after_of_error run]
    exact .inr ⟨rfl, fun _ => rfl⟩
  | needless refusal written run =>
    rw [Act.after_of_ok run]
    exact .inr ⟨rfl, fun _ => rfl⟩
  | replaced refusal written failure run store disk =>
    rw [Act.after_of_ok run] at ho ⊢
    exact .inl (hwritten ho store disk)
  | unforced refusal written failure run store disk =>
    rw [Act.after_of_error run] at ho ⊢
    exact .inl (hwritten ho store disk)
  | failed refusal written failure early run store disk =>
    rw [Act.after_of_error run, failure]
    exact .inr ⟨disk, fun h => nomatch h⟩

/-- **A save** takes the stream further in the copy. The file stays or follows; without a failing
file call it follows if it was level with the copy. -/
theorem Stands.save (h : Stands path key r l m.state) (k : Text) (p : Position) :
    let l' := (saved key [.call (.save k p)]).foldl max l
    ∃ r', Stands path key r' l' ((use (.call (.save k p))).after m).state ∧ (r' = r ∨ r' = l')
      ∧ (failure? m.state (.save k p) = none → r = l → r' = l') := by
  intro l'
  have hcopy : ((answer (.save k p)).after m).state.store.load key = .ok l' :=
    Changefeed.load_save (s := m) h.copy k p
  have ho := h.opened.call (.save k p)
  have hdisk := h.opened.call_disk (.save k p)
  show ∃ r', Stands path key r' l' ((answer (.save k p)).after m).state ∧ _
  rw [← answer_after] at ho hdisk
  rcases hdisk with hin | ⟨hnodes, hsame⟩
  · exact ⟨l', ⟨ho, (hin key l').2 hcopy, hcopy⟩, .inr rfl, fun _ _ => rfl⟩
  · have hfile : recorded path key ((answer (.save k p)).after m).state.disk = .ok r := by
      rw [← h.file]
      unfold recorded
      rw [Disk.contentAt_congr hnodes]
    refine ⟨r, ⟨ho, hfile, hcopy⟩, .inl rfl, fun hfailure hlevel => ?_⟩
    rw [hsame hfailure, h.copy] at hcopy
    exact hlevel.trans (Except.ok.inj hcopy)

/-- **Opening the file again** takes the copy back to the file. -/
theorem Stands.reopen (h : Stands path key r l m.state) (durable : Bool) :
    Stands path key r r ((use (.reopen durable)).after m).state := by
  obtain ⟨t, hrun, hdisk, ho, hin⟩ := h.opened.reopen h.file durable
  have hfile : recorded path key t.state.disk = .ok r := by rw [hdisk]; exact h.file
  rw [Act.after_of_ok hrun]
  exact ⟨ho, hfile, (hin key r).1 hfile⟩

end FileStore

end Changefeed
