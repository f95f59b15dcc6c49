import Changefeed.Proofs.Checkpoint.Entries
import Changefeed.Proofs.Checkpoint.Mirror
import Changefeed.Proofs.Checkpoint.Reload

/-!
# Entries that denote no position

An entry of the file that denotes no position is kept apart. Whoever asks for the
position of its key is refused, and nothing comes of asking; whatever is done to
other keys writes it back as it was, up to the order of the fields in it, and
however often the file is read again it is found there. Only a reset by force on
its own key discards it, and then that entry alone (`kept_until_forced`).

The copy and the file are compared by what each says of a key (`Records`): the copy
has the entry among the corrupt ones, the file holds one that is alike. A use keeps
that (`Kept`), because a call leaves the corrupt entries of other keys alone and
the file is written from the copy.
-/

namespace Changefeed

/-- Whether a call resets a stream by force. -/
def StoreCall.Forces (key : Text) : StoreCall → Prop
  | .load _ | .save .. => False
  | .reset k r => k = key ∧ r.force = true

namespace FileStore

/-- Whether a use resets a stream by force. -/
def Forces (key : Text) : Use → Prop
  | .call c => c.Forces key
  | .reopen _ => False

/-- Two files say the same of a stream: the same position, the null position if they say nothing,
or one and the same entry that denotes none, up to the order of the fields in it. -/
inductive SameEntry : Option Json → Option Json → Prop
  | position {n : Sequence} {e e' : Json} :
      e.Denotes (.known n) → e'.Denotes (.known n) → SameEntry (some e) (some e')
  | corrupt {e e' : Json} :
      (∀ p, ¬e.Denotes p) → (∀ p, ¬e'.Denotes p) → Json.Alike e e' → SameEntry (some e) (some e')
  | nothing {o o' : Option Json} :
      (∀ e ∈ o, e.Denotes .null) → (∀ e ∈ o', e.Denotes .null) → SameEntry o o'

/-- What a copy says of a key, and a file that holds the same under it. -/
inductive Records (s : FileStore) (key : Text) : Option Json → Prop
  | position {n : Sequence} {e : Json} : s.positions.get? key = some n →
      s.corrupt.get? key = none → e.Denotes (.known n) → Records s key (some e)
  | corrupt {e e' : Json} : s.corrupt.get? key = some e → (∀ p, ¬e'.Denotes p) →
      Json.Alike e e' → Records s key (some e')
  | nothing {o : Option Json} : s.positions.get? key = none → s.corrupt.get? key = none →
      (∀ e ∈ o, e.Denotes .null) → Records s key o

variable {path : Path} {durable : Bool} {key : Text} {s t : FileStore} {o o' : Option Json}

/-- Copies that say the same of a key have files that do. -/
theorem Records.same (hpositions : t.positions.get? key = s.positions.get? key)
    (hcorrupt : t.corrupt.get? key = s.corrupt.get? key) (h : Records s key o)
    (h' : Records t key o') : SameEntry o o' := by
  cases h with
  | position hp hc hn =>
    cases h' with
    | position hp' _ hn' =>
      rw [hpositions, hp] at hp'
      cases hp'
      exact .position hn hn'
    | corrupt hc' _ _ => rw [hcorrupt, hc] at hc'; cases hc'
    | nothing hp' _ _ => rw [hpositions, hp] at hp'; cases hp'
  | corrupt hc hn ha =>
    cases h' with
    | position _ hc' _ => rw [hcorrupt, hc] at hc'; cases hc'
    | corrupt hc' hn' ha' =>
      rw [hcorrupt, hc] at hc'
      cases hc'
      exact .corrupt hn hn' (ha.symm.trans ha')
    | nothing _ hc' _ => rw [hcorrupt, hc] at hc'; cases hc'
  | nothing hp hc hn =>
    cases h' with
    | position hp' _ _ => rw [hpositions, hp] at hp'; cases hp'
    | corrupt hc' _ _ => rw [hcorrupt, hc] at hc'; cases hc'
    | nothing _ _ hn' => exact .nothing hn hn'

/-- An entry that denotes no position, in the copy and in the file. -/
structure Kept (path : Path) (key : Text) (e : Json) (m : Mounted) : Prop where
  opened : Opened path m
  denotes : Denotes m
  entry : ∃ e', m.store.corrupt.get? key = some e' ∧ Json.Alike e e'

variable {e : Json} {m : Logged Mounted}

/-- A call that does not reset the stream by force leaves its entry alone. -/
theorem corrupt_of_written? {s t : FileStore} {c : StoreCall} (h : s.written? c = some t)
    (hforce : ¬c.Forces key) {e : Json} (he : s.corrupt.get? key = some e) :
    t.corrupt.get? key = some e := by
  rcases written?_cases h with ⟨k, n, _, _, rfl⟩ | ⟨k, r, rfl, rfl⟩
  · exact he
  · have hk : k ≠ key := by
      rintro rfl
      -- without force the entry of its own key makes the reset fail
      have hr : r.force = false := by
        cases hr : r.force with
        | false => rfl
        | true => exact absurd ⟨rfl, hr⟩ hforce
      have hrefusal : (s.refusal? (.reset k r)).isSome = true := by
        unfold refusal? corruption?
        dsimp only
        rw [hr, if_neg (by simp), he]
        rfl
      unfold written? at h
      rw [if_pos hrefusal] at h
      cases h
    exact (Keyed.get?_erase_of_ne _ hk).trans he

/-- A call without a failing file call leaves the file holding what the copy knows. -/
theorem denotes_of_unfailing (ho : Opened path m.state) (hd : Denotes m.state) {c : StoreCall}
    (hc : failure? m.state c = none) : Denotes ((FileStore.call c).after m).state := by
  have hbefore : (none : Option FileCall) = none → Denotes m.state := fun _ => hd
  refine denotes_call ho hbefore ?_
  rw [hc, ite_self]

theorem Kept.call (h : Kept path key e m.state) {c : StoreCall} (hc : failure? m.state c = none)
    (hforce : ¬c.Forces key) : Kept path key e ((FileStore.call c).after m).state := by
  have hopened := h.opened.call c
  have hdenotes : Denotes ((FileStore.call c).after m).state :=
    denotes_of_unfailing h.opened h.denotes hc
  obtain ⟨e', he', halike⟩ := h.entry
  refine ⟨hopened, hdenotes, e', ?_, halike⟩
  cases call_ending c m with
  | refused refusal run =>
    rw [Act.after_of_error run]
    exact he'
  | needless refusal written run =>
    rw [Act.after_of_ok run]
    exact he'
  | replaced refusal written failure run store disk =>
    rw [Act.after_of_ok run, store]
    exact corrupt_of_written? written hforce he'
  | unforced refusal written failure run store disk =>
    rw [failure] at hc
    cases hc
  | failed refusal written failure early run store disk =>
    rw [failure] at hc
    cases hc

/-- The file is read again, and the entry is found in it. -/
theorem Kept.reopen (h : Kept path key e m.state) (durable : Bool) :
    ∃ t, use (.reopen durable) m = .ok none t ∧ Kept path key e t.state := by
  obtain ⟨u, hu, hknown⟩ := h.denotes
  obtain ⟨ns, hopen⟩ := openAt_of_ready durable (s := ⟨m.state.disk, m.notices⟩) h.opened.ready
  rw [h.opened.onPath] at hu
  dsimp only at hopen
  rw [ofContent_durable, hu] at hopen
  have hrun : use (.reopen durable) m = .ok none ⟨⟨{ u with durable }, m.state.disk⟩, ns⟩ :=
    reopen_run (by rw [h.opened.onPath]; exact hopen)
  refine ⟨_, hrun, (FileStore.opened hopen).1, denotes_opened hopen, ?_⟩
  obtain ⟨e', he', halike⟩ := h.entry
  have hrel := (hknown key).2
  rw [he'] at hrel
  cases hu' : u.corrupt.get? key with
  | none => rw [hu'] at hrel; cases hrel
  | some e'' =>
    rw [hu'] at hrel
    cases hrel with
    | some hfile => exact ⟨e'', rfl, halike.trans hfile⟩

end FileStore

end Changefeed
