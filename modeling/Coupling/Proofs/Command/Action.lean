import Coupling.Command.Run

/-!
# What actions ensure

An action may return or fail, and leaves a disk in both cases. What is known of
the outcome of an action is put together from what is known of its parts: a
failure ends the whole action with the disk of that moment.
-/

namespace Coupling.Action

variable {ε α β : Type} {disk : Disk} {returns : α → Disk → Prop} {fails : Failure → Disk → Prop}

/-- Run on the disk, the action returns a value and a disk as described, or it fails and leaves a
disk as described. -/
def Ensures (action : Action α) (disk : Disk) (returns : α → Disk → Prop)
    (fails : Failure → Disk → Prop) : Prop :=
  match action.run disk with
  | (.ok value, after) => returns value after
  | (.error failure, after) => fails failure after

theorem ensures_pure {value : α} :
    Ensures (pure value : Action α) disk returns fails ↔ returns value disk :=
  Iff.rfl

theorem ensures_throw {failure : Failure} :
    Ensures (throw failure : Action α) disk returns fails ↔ fails failure disk :=
  Iff.rfl

theorem ensures_get {returns : Disk → Disk → Prop} :
    Ensures (get : Action Disk) disk returns fails ↔ returns disk disk :=
  Iff.rfl

theorem ensures_modify {change : Disk → Disk} {returns : Unit → Disk → Prop} :
    Ensures (modify change : Action Unit) disk returns fails ↔ returns () (change disk) :=
  Iff.rfl

theorem ensures_set {changed : Disk} {returns : PUnit → Disk → Prop} :
    Ensures (set changed : Action PUnit) disk returns fails ↔ returns () changed :=
  Iff.rfl

theorem ensures_bind {action : Action α} {next : α → Action β} {returns : β → Disk → Prop} :
    Ensures (action >>= next) disk returns fails ↔
      Ensures action disk (fun value middle => Ensures (next value) middle returns fails)
        fails := by
  have run_bind : (action >>= next).run disk =
      match action.run disk with
      | (.ok value, middle) => (next value).run middle
      | (.error failure, middle) => (.error failure, middle) := by
    change (ExceptT.bindCont next (action.run disk).1) (action.run disk).2 = _
    rcases action.run disk with ⟨_ | _, middle⟩
    · rfl
    · rfl
  rw [Ensures, run_bind, Ensures]
  rcases action.run disk with ⟨failure | value, middle⟩
  · rfl
  · rfl

theorem ensures_consult {cause : ε → Failure} {look : Disk → Except ε α} :
    Ensures (consult cause look) disk returns fails ↔
      (∀ value, look disk = .ok value → returns value disk) ∧
        ∀ error, look disk = .error error → fails (cause error) disk := by
  rw [consult, ensures_bind, ensures_get]
  cases look disk with
  | ok value => simp [ensures_pure]
  | error error => simp [ensures_throw]

theorem ensures_alter {cause : ε → Failure} {change : Disk → Except ε Disk}
    {returns : Unit → Disk → Prop} :
    Ensures (alter cause change) disk returns fails ↔
      (∀ changed, change disk = .ok changed → returns () changed) ∧
        ∀ error, change disk = .error error → fails (cause error) disk := by
  rw [alter, ensures_bind, ensures_get]
  cases change disk with
  | ok changed => simp [ensures_set]
  | error error => simp [ensures_throw]

theorem Ensures.mono {action : Action α} {returns' : α → Disk → Prop}
    {fails' : Failure → Disk → Prop} (ensured : Ensures action disk returns fails)
    (returned : ∀ value after, returns value after → returns' value after)
    (failed : ∀ failure after, fails failure after → fails' failure after) :
    Ensures action disk returns' fails' := by
  revert ensured
  unfold Ensures
  rcases action.run disk with ⟨failure | value, after⟩
  · exact failed failure after
  · exact returned value after

theorem Ensures.run_eq {action : Action α} {value : α} {after : Disk}
    (ensured : Ensures action disk (fun found left => found = value ∧ left = after)
      (fun _ _ => False)) :
    action.run disk = (.ok value, after) := by
  revert ensured
  unfold Ensures
  rcases action.run disk with ⟨failure | found, left⟩
  · exact False.elim
  · rintro ⟨rfl, rfl⟩
    rfl

/-- What is ensured of the disk alone holds whether the action returns or fails. -/
theorem ensures_disk_iff {action : Action α} {left : Disk → Prop} :
    Ensures action disk (fun _ => left) (fun _ => left) ↔ left (action.run disk).2 := by
  unfold Ensures
  rcases action.run disk with ⟨failure | value, after⟩
  · rfl
  · rfl

theorem run_consult_eq_ok_iff {cause : ε → Failure} {look : Disk → Except ε α} {value : α} :
    ((consult cause look).run disk).1 = .ok value ↔ look disk = .ok value := by
  have ensured : Ensures (consult cause look) disk (fun found _ => look disk = .ok found)
      (fun _ _ => look disk ≠ .ok value) := by
    rw [ensures_consult]
    exact ⟨fun _ found => found, fun _ failed => by simp [failed]⟩
  revert ensured
  unfold Ensures
  rcases (consult cause look).run disk with ⟨failure | found, after⟩
  · intro refused
    simp [refused]
  · intro looked
    simp [looked]

/-- Whether it returns or fails, the action leaves the disk as it was. -/
def ReadsOnly (action : Action α) : Prop :=
  ∀ disk, (action.run disk).2 = disk

namespace ReadsOnly

variable {action : Action α} {next : α → Action β}

protected theorem pure (value : α) : ReadsOnly (pure value : Action α) :=
  fun _ => rfl

protected theorem throw (failure : Failure) : ReadsOnly (throw failure : Action α) :=
  fun _ => rfl

protected theorem get : ReadsOnly (get : Action Disk) :=
  fun _ => rfl

protected theorem consult (cause : ε → Failure) (look : Disk → Except ε α) :
    ReadsOnly (consult cause look) := by
  intro disk
  have ensured : Ensures (consult cause look) disk (fun _ after => after = disk)
      (fun _ after => after = disk) := by
    rw [ensures_consult]
    exact ⟨fun _ _ => rfl, fun _ _ => rfl⟩
  exact ensures_disk_iff.mp ensured

/-- What comes after an action that changes nothing starts on the same disk. -/
theorem ensures_bind {returns : β → Disk → Prop} (readsOnly : ReadsOnly action)
    (returned : ∀ value, (action.run disk).1 = .ok value → Ensures (next value) disk returns fails)
    (failed : ∀ failure, (action.run disk).1 = .error failure → fails failure disk) :
    Ensures (action >>= next) disk returns fails := by
  have left := readsOnly disk
  rw [Action.ensures_bind, Ensures]
  revert returned failed left
  rcases action.run disk with ⟨failure | value, after⟩
  · rintro _ failed rfl
    exact failed failure rfl
  · rintro returned _ rfl
    exact returned value rfl

protected theorem bind (first : ReadsOnly action) (second : ∀ value, ReadsOnly (next value)) :
    ReadsOnly (action >>= next) := by
  intro disk
  have kept : Ensures (action >>= next) disk (fun _ after => after = disk)
      (fun _ after => after = disk) := by
    apply first.ensures_bind
    · intro value _
      exact ensures_disk_iff.mpr (second value disk)
    · intro _ _
      rfl
  exact ensures_disk_iff.mp kept

end ReadsOnly

end Coupling.Action
