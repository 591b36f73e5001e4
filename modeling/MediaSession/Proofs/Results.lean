/-!
Results of steps that may fail. A sequence of steps goes on while they succeed, and ends with the first one that fails.
-/
namespace MediaSession

/-- A sequence of steps that may fail succeeds if every step does. -/
theorem bind_ok_iff {first : Except ε α} {next : α → Except ε β} {result : β} :
    (first >>= next) = .ok result ↔ ∃ value, first = .ok value ∧ next value = .ok result := by
  cases first with
  | error error => simp [bind, Except.bind]
  | ok value => simp [bind, Except.bind]

theorem bind_error_iff {first : Except ε α} {next : α → Except ε β} {error : ε} :
    (first >>= next) = .error error ↔
      first = .error error ∨ ∃ value, first = .ok value ∧ next value = .error error := by
  cases first with
  | error other => simp [bind, Except.bind]
  | ok value => simp [bind, Except.bind]

theorem mapError_ok_iff {result : Except ε α} {change : ε → δ} {value : α} :
    result.mapError change = .ok value ↔ result = .ok value := by
  cases result with
  | error error => exact ⟨nofun, nofun⟩
  | ok other => exact ⟨fun same => congrArg _ (Except.ok.inj same), fun same => congrArg _ (Except.ok.inj same)⟩

theorem forM_ok_iff {items : List α} {check : α → Except ε Unit} :
    items.forM check = .ok () ↔ ∀ item ∈ items, check item = .ok () := by
  induction items with
  | nil => simp [pure, Except.pure]
  | cons first rest ih =>
    change (check first >>= fun _ => rest.forM check) = _ ↔ _
    rw [bind_ok_iff, List.forall_mem_cons]
    constructor
    · rintro ⟨⟨⟩, checked, others⟩
      exact ⟨checked, ih.mp others⟩
    · rintro ⟨checked, others⟩
      exact ⟨(), checked, ih.mpr others⟩

theorem forM_error {items : List α} {check : α → Except ε Unit} {error : ε}
    (failed : items.forM check = .error error) : ∃ item ∈ items, check item = .error error := by
  induction items with
  | nil => cases failed
  | cons first rest ih =>
    rcases bind_error_iff.mp (failed : (check first >>= fun _ => rest.forM check) = _) with here | ⟨_, _, later⟩
    · exact ⟨first, List.mem_cons_self, here⟩
    · obtain ⟨item, member, found⟩ := ih later
      exact ⟨item, List.mem_cons_of_mem _ member, found⟩

theorem mapM_ok {items : List α} {step : β → Except ε α} {write : α → β}
    (back : ∀ item ∈ items, step (write item) = .ok item) : (items.map write).mapM step = .ok items := by
  induction items with
  | nil => rfl
  | cons first rest ih =>
    rw [List.map_cons, List.mapM_cons, back first List.mem_cons_self,
      ih fun item member => back item (List.mem_cons_of_mem _ member)]
    rfl

end MediaSession
