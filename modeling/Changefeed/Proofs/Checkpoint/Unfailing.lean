import Mathlib.Logic.Relation
import Changefeed.Proofs.Checkpoint.Cells

/-!
# Stores that never fail

A call to a store in memory ends by the cell of its key. So does a call to a store
on a file, as long as no file call fails, and a file call may fail later that did not
fail at first. A host is unfailing if none ever does, whatever calls are made of it
(`Host.Unfailing`). That is so in memory, and on a disk with a way to the file where
no call is planned to fail (`unfailing_of_writable`), because replacing the file
leaves such a disk such a one.
-/

namespace Changefeed

/-- A property of stores that survives every call, and with which a call ends by the cell of its key
alone. -/
structure Reliable {σ : Type} [CheckpointStore σ] (Q : σ → Prop) : Prop where
  verdict : ∀ (c : StoreCall) (s : Logged σ), Q s.state →
    (answer c).result s = c.verdict (CheckpointStore.load s.state c.key)
  kept : ∀ (c : StoreCall) (s : Logged σ), Q s.state → Q ((answer c).after s).state

/-- Two reliable stores that hold the same for a stream. -/
structure Same {σ : Type} [CheckpointStore σ] (Q : σ → Prop) (key : Text) (s s' : σ) : Prop where
  stored : CheckpointStore.load s' key = CheckpointStore.load s key
  kept : Q s
  kept' : Q s'

/-- A reliable store with a cell of a stream. -/
structure Holding {σ : Type} [CheckpointStore σ] (Q : σ → Prop) (key : Text) (cell : Cell)
    (s : σ) : Prop where
  stored : CheckpointStore.load s key = cell
  kept : Q s

namespace Reliable

variable {σ : Type} [CheckpointStore σ] [Celled σ] {Q : σ → Prop} {key : Text} {cell : Cell}

/-- **A call for a stream** ends alike on two stores that hold the same for it, and leaves the same
there. -/
theorem answer_same (h : Reliable Q) (c : StoreCall) :
    Act.Matches (fun s s' : Logged σ => Same Q c.key s.state s'.state) (answer c) (answer c) := by
  intro s s' hs
  refine ⟨?_, ?_, h.kept c s hs.kept, h.kept c s' hs.kept'⟩
  · rw [h.verdict c s hs.kept, h.verdict c s' hs.kept', hs.stored]
  · rw [Celled.own, Celled.own, hs.stored]

/-- **A call for another stream** leaves the cell as it was. -/
theorem answer_other (h : Reliable Q) {c : StoreCall} (hne : c.key ≠ key) :
    Act.Keeps (Holding Q key cell) (answer c) :=
  fun s hs => ⟨(Celled.others c s key hne).trans hs.stored, h.kept c s hs.kept⟩

omit [CheckpointStore σ] [Celled σ] in
/-- What a call returns besides that it went well does not matter for a save and a reset. -/
theorem matches_of_returning {R : Logged σ → Logged σ → Prop} {act : Act σ Unit}
    {o : Option Position} (h : Act.Matches R (act >>= fun _ => pure o) (act >>= fun _ => pure o)) :
    Act.Matches R act act := by
  have hresult : ∀ s, act.result s =
      ((act >>= fun _ => pure o : Act σ (Option Position)).result s).map fun _ => () := by
    intro s
    unfold Act.result
    rw [Act.bind_run]
    cases act s <;> rfl
  intro s s' hs
  obtain ⟨hsame, hafter⟩ := h s s' hs
  rw [Act.after_bind_pure, Act.after_bind_pure] at hafter
  exact ⟨by rw [hresult, hresult, hsame], hafter⟩

theorem save_same (h : Reliable Q) (key : Text) (p : Position) :
    Act.Matches (fun s s' : Logged σ => Same Q key s.state s'.state) (CheckpointStore.save key p)
      (CheckpointStore.save key p) :=
  matches_of_returning (h.answer_same (.save key p))

theorem reset_same (h : Reliable Q) (key : Text) (r : Reset) :
    Act.Matches (fun s s' : Logged σ => Same Q key s.state s'.state) (CheckpointStore.reset key r)
      (CheckpointStore.reset key r) :=
  matches_of_returning (h.answer_same (.reset key r))

theorem save_other (h : Reliable Q) {k : Text} (hne : k ≠ key) (p : Position) :
    Act.Keeps (Holding Q key cell) (CheckpointStore.save k p) := by
  intro s hs
  rw [← answer_save_after]
  exact h.answer_other (c := .save k p) hne s hs

theorem reset_other (h : Reliable Q) {k : Text} (hne : k ≠ key) (r : Reset) :
    Act.Keeps (Holding Q key cell) (CheckpointStore.reset k r) := by
  intro s hs
  rw [← answer_reset_after]
  exact h.answer_other (c := .reset k r) hne s hs

end Reliable

/-! ## Disks on which a file can be replaced -/

namespace Disk

/-- Whether no call is planned to fail. -/
structure Calm (d : Disk) : Prop where
  stage : true ∉ d.plan.stage
  sync : true ∉ d.plan.sync
  rename : true ∉ d.plan.rename

/-- Whether the file at a path can be replaced, as often as one likes. -/
structure Writable (p : Path) (d : Disk) : Prop where
  calm : d.Calm
  way : d.locate p = .ok p.target
  beside : ∃ l, d.locate (stagedPath p) = .ok l
  file : d.node? p.target ≠ some .directory

theorem headD_of_not_mem {plan : List Bool} (h : true ∉ plan) : plan.headD false = false := by
  cases plan with
  | nil => rfl
  | cons fails rest =>
    cases fails with
    | false => rfl
    | true => exact absurd List.mem_cons_self h

theorem not_mem_tail {plan : List Bool} (h : true ∉ plan) : true ∉ plan.tail :=
  fun hmem => h (List.mem_of_mem_tail hmem)

/-- Replacing a file plans no call to fail. -/
theorem calm_replace (p : Path) (text : String) (durable : Bool) :
    Act.Keeps Calm (replace p text durable) := by
  have hplanned : ∀ plan, Act.Keeps Calm (planned plan) := by
    intro plan
    unfold planned
    split
    · exact .fail _
    · exact .pure ()
  have hstage : Act.Keeps Calm (stage p text) := by
    refine .bind .state fun d => .bind (.update fun d h => ?_) fun _ => .bind (hplanned _) fun _ =>
      .bind (.ofExcept _) fun l => .bind (.update fun d h => ⟨h.stage, h.sync, h.rename⟩) fun _ =>
      .pure _
    exact ⟨not_mem_tail h.stage, h.sync, h.rename⟩
  have hsync : Act.Keeps Calm sync :=
    .bind .state fun d => .bind (.update fun d h => ⟨h.stage, not_mem_tail h.sync, h.rename⟩)
      fun _ => hplanned _
  have hrename : ∀ l, Act.Keeps Calm (rename l p) := by
    intro l
    refine .bind .state fun d => .bind (.update fun d h => ?_) fun _ => .bind (hplanned _) fun _ =>
      .bind (.ofExcept _) fun k => ?_
    · exact ⟨h.stage, h.sync, not_mem_tail h.rename⟩
    · split
      · exact .fail _
      · exact .fail _
      · exact .update fun d h => ⟨h.stage, h.sync, h.rename⟩
  have hdiscard : ∀ l, ∀ _ : Fault, Act.Keeps Calm (Act.update fun d : Disk => d.remove l) :=
    fun l _ => .update fun d h => ⟨h.stage, h.sync, h.rename⟩
  refine .bind hstage fun l => ?_
  cases durable with
  | false => exact .bind (.onFault (hrename l) (hdiscard l)) fun _ => .pure ()
  | true =>
    exact .bind (.onFault hsync (hdiscard l)) fun _ =>
      .bind (.onFault (hrename l) (hdiscard l)) fun _ => hsync

theorem Writable.failing? {p : Path} {d : Disk} (h : Writable p d) (durable : Bool) :
    d.failing? p durable = none := by
  have hdirectory : d.isDirectory p.target = false := by
    rw [Bool.eq_false_iff]
    exact fun hd => h.file (isDirectory_iff.1 hd)
  obtain ⟨l, hl⟩ := h.beside
  unfold Disk.failing? refusesStage refusesRename
  rw [headD_of_not_mem h.calm.stage, headD_of_not_mem h.calm.sync, headD_of_not_mem h.calm.rename,
    headD_of_not_mem (not_mem_tail h.calm.sync), hl, h.way, hdirectory, Bool.and_false]
  rfl

/-- **A file that can be replaced** can be replaced again. -/
theorem Writable.replace {p : Path} (text : String) (durable : Bool) :
    Act.Keeps (Writable p) (Disk.replace p text durable) := by
  intro s hs
  have hcalm := calm_replace p text durable s hs.calm
  have hends := replace_run p text durable s
  rw [hs.failing? durable] at hends
  obtain ⟨t, ht, hr⟩ := hends
  rw [Act.after_of_ok ht] at hcalm ⊢
  refine ⟨hcalm, locate_of_keeps hr.keepsDirectories hs.way,
    hs.beside.imp fun l => locate_of_keeps hr.keepsDirectories, ?_⟩
  rw [hr.node?, if_pos rfl]
  exact nofun

end Disk

namespace FileStore

/-- Whether the file of a store can be replaced. -/
def Replaceable (m : Mounted) : Prop := m.disk.Writable m.store.path

theorem flush_keeps : Act.Keeps Replaceable flush := by
  intro m hm
  have hkept := Disk.Writable.replace m.state.store.written m.state.store.durable
    ⟨m.state.disk, m.notices⟩ hm
  have hends := Disk.replace_run m.state.store.path m.state.store.written m.state.store.durable
    ⟨m.state.disk, m.notices⟩
  rw [Disk.Writable.failing? hm] at hends
  obtain ⟨u, hu, -⟩ := hends
  rw [Act.after_of_ok hu] at hkept
  rw [Act.after_of_ok (flush_ok hu)]
  exact hkept

/-- A call leaves the file where it can be replaced. -/
theorem call_keeps (c : StoreCall) : Act.Keeps Replaceable (call c) := by
  intro m hm
  obtain ⟨ns, hrun⟩ := call_run c m
  unfold Act.after
  rw [hrun]
  cases hrefusal : m.state.store.refusal? c with
  | some f => exact hm
  | none =>
    cases hrevision : m.state.store.revision? c with
    | none => exact hm
    | some s =>
      have hpath : s.path = m.state.store.path :=
        path_of_written? ((written?_of_none hrefusal).trans hrevision)
      refine flush_keeps ⟨{ m.state with store := s }, ns⟩ ?_
      show m.state.disk.Writable s.path
      rw [hpath]
      exact hm

theorem failure?_of_replaceable {m : Mounted} (h : Replaceable m) (c : StoreCall) :
    failure? m c = none := by
  unfold failure?
  cases hwritten : m.store.written? c with
  | none => rfl
  | some s =>
    show m.disk.failing? s.path s.durable = none
    rw [path_of_written? hwritten]
    exact Disk.Writable.failing? h s.durable

end FileStore

/-! ## Hosts -/

namespace Host

/-- Whether a call makes one host of another. -/
def Becomes (h g : Host) : Prop :=
  ∃ (c : StoreCall) (ns : List Notice), ((answer c).after ⟨h, ns⟩).state = g

/-- Whether no file call fails, whatever calls are made of the store. -/
def Unfailing (h : Host) : Prop :=
  ∀ g, Relation.ReflTransGen Becomes h g → ∀ c, g.failure? c = none

/-- A host on which no file call fails answers by the cells. -/
theorem reliable : Reliable Unfailing where
  verdict c h hq := result_answer (hq h.state .refl c)
  kept c h hq g hg := hq g (.head ⟨c, h.notices, rfl⟩ hg)

theorem Unfailing.of_invariant {P : Host → Prop} (hfail : ∀ h, P h → ∀ c, h.failure? c = none)
    (hkept : ∀ c, Act.Keeps P (answer c)) {h : Host} (hp : P h) : Unfailing h := by
  intro g hg
  refine hfail g ?_
  induction hg with
  | refl => exact hp
  | tail _ hstep ih =>
    obtain ⟨c, ns, rfl⟩ := hstep
    exact hkept c ⟨_, ns⟩ ih

/-- In memory nothing fails. -/
theorem unfailing_memory (disk : Disk) (s : MemoryStore) : Unfailing ⟨disk, .memory s⟩ := by
  refine .of_invariant (P := fun h => ∃ s, h.store = .memory s) ?_ ?_ ⟨s, rfl⟩
  · rintro h ⟨s, hs⟩ c
    unfold failure?
    rw [hs]
  · rintro c h ⟨s, hs⟩
    rw [Act.after_congr (answer_eq c h), act_after, hs]
    exact ⟨_, rfl⟩

/-- **On a disk on which the file can be replaced** nothing fails either. -/
theorem unfailing_of_writable {disk : Disk} {s : FileStore} (h : disk.Writable s.path) :
    Unfailing ⟨disk, .file s⟩ := by
  refine .of_invariant (P := fun h => ∃ s, h.store = .file s ∧ h.disk.Writable s.path) ?_ ?_
    ⟨s, rfl, h⟩
  · rintro h ⟨s, hs, hw⟩ c
    unfold failure?
    rw [hs]
    exact FileStore.failure?_of_replaceable (m := ⟨s, h.disk⟩) hw c
  · rintro c h ⟨s, hs, hw⟩
    rw [Act.after_congr (answer_eq c h), act_after, hs]
    refine ⟨_, rfl, ?_⟩
    have hkept := FileStore.call_keeps c ⟨⟨s, h.state.disk⟩, h.notices⟩ hw
    rw [← FileStore.answer_after] at hkept
    exact hkept

end Host

end Changefeed
