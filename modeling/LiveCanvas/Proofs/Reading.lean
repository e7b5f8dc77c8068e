/-!
# Readings in steps

Data from outside is read step by step, and the first step that fails ends the reading.  A reading
that succeeds can be taken apart into its steps again, and one that fails leads back to the step
that did.  Work on a state goes the same way, and what it did to the state stays.
-/

namespace LiveCanvas

variable {ε α β γ : Type}

/-- A reading in two steps succeeds when both steps do. -/
theorem bind_eq_ok_iff {x : Except ε α} {f : α → Except ε β} {b : β} :
    x >>= f = .ok b ↔ ∃ a, x = .ok a ∧ f a = .ok b := by
  cases x with
  | error e => simp [bind, Except.bind]
  | ok a => simp [bind, Except.bind]

/-- A reading in two steps fails as the first step does, or as the second does after the first. -/
theorem bind_eq_error_iff {x : Except ε α} {f : α → Except ε β} {e : ε} :
    x >>= f = .error e ↔ x = .error e ∨ ∃ a, x = .ok a ∧ f a = .error e := by
  cases x with
  | error e' => simp [bind, Except.bind]
  | ok a => simp [bind, Except.bind]

theorem pure_eq_ok_iff {a b : α} : (pure a : Except ε α) = .ok b ↔ a = b := by
  simp [pure, Except.pure]

theorem pure_ne_error {a : α} {e : ε} : (pure a : Except ε α) ≠ .error e := by
  simp [pure, Except.pure]

/-- Where the first step can be told apart only by a part of its result, and the rest depends on
that part, so does the whole. -/
theorem map_bind_congr {δ : Type} {x x' : Except ε α} {part : α → γ} {k : α → Except ε β}
    {f : β → δ} (h : part <$> x = part <$> x')
    (hk : ∀ a a', part a = part a' → f <$> k a = f <$> k a') :
    f <$> (x >>= k) = f <$> (x' >>= k) := by
  rcases x with e | a <;> rcases x' with e' | a'
  · exact congrArg Except.error (Except.error.inj h)
  · exact nomatch h
  · exact nomatch h
  · exact hk a a' (Except.ok.inj h)

/-! ## Lists -/

/-- A list can be read when each of its items can. -/
theorem exists_of_mapM_eq_ok {f : α → Except ε β} {xs : List α} {ys : List β}
    (h : xs.mapM f = .ok ys) : ∀ x ∈ xs, ∃ y, f x = .ok y := by
  induction xs generalizing ys with
  | nil => simp
  | cons x xs ih =>
      rw [List.mapM_cons, bind_eq_ok_iff] at h
      obtain ⟨y, hy, h⟩ := h
      obtain ⟨_, hrest, -⟩ := bind_eq_ok_iff.mp h
      exact List.forall_mem_cons.mpr ⟨⟨y, hy⟩, ih hrest⟩

/-- What is read from a list has what reading gives each item. -/
theorem forall_of_mapM_eq_ok {f : α → Except ε β} {p : β → Prop}
    (hp : ∀ x y, f x = .ok y → p y) {xs : List α} {ys : List β} (h : xs.mapM f = .ok ys) :
    ∀ y ∈ ys, p y := by
  induction xs generalizing ys with
  | nil =>
      obtain rfl := pure_eq_ok_iff.mp h
      simp
  | cons x xs ih =>
      rw [List.mapM_cons, bind_eq_ok_iff] at h
      obtain ⟨y, hy, h⟩ := h
      obtain ⟨rest, hrest, h⟩ := bind_eq_ok_iff.mp h
      obtain rfl := pure_eq_ok_iff.mp h
      exact List.forall_mem_cons.mpr ⟨hp x y hy, ih hrest⟩

/-- A list that cannot be read fails as one of its items does. -/
theorem exists_of_mapM_eq_error {f : α → Except ε β} {xs : List α} {e : ε}
    (h : xs.mapM f = .error e) : ∃ x ∈ xs, f x = .error e := by
  induction xs with
  | nil => exact absurd h pure_ne_error
  | cons x xs ih =>
      rw [List.mapM_cons, bind_eq_error_iff] at h
      obtain hx | ⟨_, -, h⟩ := h
      · exact ⟨x, List.mem_cons_self, hx⟩
      · obtain hrest | ⟨_, -, h⟩ := bind_eq_error_iff.mp h
        · obtain ⟨other, hmem, he⟩ := ih hrest
          exact ⟨other, List.mem_cons_of_mem _ hmem, he⟩
        · exact absurd h pure_ne_error

/-- What is written item by item is read back item by item. -/
theorem mapM_map_eq_ok {f : α → Except ε β} {write : γ → α} {back : γ → β} {xs : List γ}
    (h : ∀ x ∈ xs, f (write x) = .ok (back x)) : (xs.map write).mapM f = .ok (xs.map back) := by
  induction xs with
  | nil => rfl
  | cons x xs ih =>
      obtain ⟨hx, hrest⟩ := List.forall_mem_cons.mp h
      rw [List.map_cons, List.mapM_cons, hx, ih hrest]
      rfl

theorem mapM_map_eq_ok_self {f : α → Except ε γ} {write : γ → α} {xs : List γ}
    (h : ∀ x, f (write x) = .ok x) : (xs.map write).mapM f = .ok xs := by
  rw [mapM_map_eq_ok fun x _ => h x, List.map_id']

/-! ## Work on a state -/

/-- Steps that all succeed, one after the other. -/
theorem run_forM {σ : Type} {work : α → EStateM ε σ Unit} {change : σ → α → σ}
    (h : ∀ a s, (work a).run s = .ok () (change s a)) (as : List α) (s : σ) :
    (as.forM work).run s = .ok () (as.foldl change s) := by
  induction as generalizing s with
  | nil => rfl
  | cons a as ih =>
      change (work a >>= fun _ => as.forM work).run s = _
      rw [EStateM.run_bind, h]
      exact ih (change s a)

end LiveCanvas
