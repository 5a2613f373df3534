import Mathlib.Data.List.Basic

/-!
# Sequences of steps that can fail

How a sequence of steps that can fail is taken apart: a first step that succeeds hands on its result, one that fails
ends the sequence, and the sequence succeeds exactly if all of its steps do. Gathering from a list (`flatMapM`) puts the
results of its steps one behind the other; from a list in another order it gives the same in another order
(`Shuffled`), as long as there is only one way to fail (`flatMapM_perm`).
-/

namespace Hyperchess.Outcome

variable {ε α β : Type}

@[simp] theorem pure_eq (a : α) : (pure a : Except ε α) = .ok a := rfl

@[simp] theorem ok_bind (a : α) (f : α → Except ε β) : (Except.ok a >>= f) = f a := rfl

@[simp] theorem error_bind (e : ε) (f : α → Except ε β) : (Except.error e >>= f) = .error e := rfl

/-- Two steps succeed exactly if the first one does and the second one does with its result. -/
theorem bind_eq_ok_iff {x : Except ε α} {f : α → Except ε β} {r : β} :
    (x >>= f) = .ok r ↔ ∃ a, x = .ok a ∧ f a = .ok r := by
  cases x with
  | error e => simp
  | ok a => simp

theorem exists_bind {x : Except ε α} {f : α → Except ε β} (hx : ∃ a, x = .ok a) (hf : ∀ a, ∃ r, f a = .ok r) :
    ∃ r, (x >>= f) = .ok r := by
  obtain ⟨a, rfl⟩ := hx
  exact hf a

/-- What is done to a result does nothing to a failure. -/
theorem map_eq_error_iff {x : Except ε α} {f : α → β} {e : ε} : x.map f = .error e ↔ x = .error e := by
  cases x <;> simp [Except.map]

/-- Going through a list, if every step succeeds. -/
theorem mapM_eq_map {f : α → Except ε β} {g : α → β} {xs : List α} (h : ∀ x ∈ xs, f x = .ok (g x)) :
    xs.mapM f = .ok (xs.map g) := by
  induction xs with
  | nil => rfl
  | cons x xs ih =>
    obtain ⟨hx, hxs⟩ := List.forall_mem_cons.1 h
    rw [List.mapM_cons, hx, ih hxs]
    rfl

/-- Going through a list succeeds only if every step does, and gives their results. -/
theorem mem_mapM {f : α → Except ε β} {xs : List α} {ys : List β} (h : xs.mapM f = .ok ys) {y : β} :
    y ∈ ys ↔ ∃ x ∈ xs, f x = .ok y := by
  induction xs generalizing ys with
  | nil =>
    cases h
    simp
  | cons x xs ih =>
    rw [List.mapM_cons] at h
    obtain ⟨z, hz, h⟩ := bind_eq_ok_iff.1 h
    obtain ⟨zs, hzs, h⟩ := bind_eq_ok_iff.1 h
    cases h
    simp [ih hzs, hz, eq_comm]

/-- If going through a list succeeds, so does every step. -/
theorem exists_of_mapM {f : α → Except ε β} {xs : List α} {ys : List β} (h : xs.mapM f = .ok ys) :
    ∀ x ∈ xs, ∃ y, f x = .ok y := by
  induction xs generalizing ys with
  | nil => exact fun x hx => absurd hx List.not_mem_nil
  | cons x xs ih =>
    rw [List.mapM_cons] at h
    obtain ⟨z, hz, h⟩ := bind_eq_ok_iff.1 h
    obtain ⟨zs, hzs, h⟩ := bind_eq_ok_iff.1 h
    exact List.forall_mem_cons.2 ⟨⟨z, hz⟩, ih hzs⟩

/-- If going through a list fails, a step fails in the same way. -/
theorem exists_of_mapM_eq_error {f : α → Except ε β} {xs : List α} {e : ε} (h : xs.mapM f = .error e) :
    ∃ x ∈ xs, f x = .error e := by
  induction xs with
  | nil => cases h
  | cons x xs ih =>
    rw [List.mapM_cons] at h
    cases hx : f x with
    | error e' =>
      rw [hx] at h
      cases h
      exact ⟨x, List.mem_cons_self, hx⟩
    | ok y =>
      cases hxs : xs.mapM f with
      | ok ys =>
        rw [hx, hxs] at h
        cases h
      | error e' =>
        rw [hx, hxs] at h
        cases h
        obtain ⟨z, hz, hfz⟩ := ih hxs
        exact ⟨z, List.mem_cons_of_mem _ hz, hfz⟩

/-- Going through a list succeeds if every step does. -/
theorem exists_mapM {f : α → Except ε β} {xs : List α} (h : ∀ x ∈ xs, ∃ y, f x = .ok y) :
    ∃ ys, xs.mapM f = .ok ys := by
  cases hxs : xs.mapM f with
  | ok ys => exact ⟨ys, rfl⟩
  | error e =>
    obtain ⟨x, hx, hfail⟩ := exists_of_mapM_eq_error hxs
    obtain ⟨y, hy⟩ := h x hx
    cases hfail.symm.trans hy

/-- What is put together is empty exactly if both parts are. -/
theorem append_eq_nil_iff {x y : Except ε (List α)} :
    (do return (← x) ++ (← y)) = Except.ok [] ↔ x = .ok [] ∧ y = .ok [] := by
  cases x with
  | error e => simp
  | ok xs => cases y <;> simp

/-- Choosing from a list succeeds only if every step does, and gives what the steps chose. -/
theorem mem_filterMapM {f : α → Except ε (Option β)} {xs : List α} {ys : List β} (h : xs.filterMapM f = .ok ys)
    {y : β} : y ∈ ys ↔ ∃ x ∈ xs, f x = .ok (some y) := by
  induction xs generalizing ys with
  | nil =>
    cases h
    simp
  | cons x xs ih =>
    rw [List.filterMapM_cons] at h
    obtain ⟨o, ho, h⟩ := bind_eq_ok_iff.1 h
    cases o with
    | none => simp [ih h, ho]
    | some z =>
      obtain ⟨zs, hzs, h⟩ := bind_eq_ok_iff.1 h
      cases h
      simp [ih hzs, ho, eq_comm]

/-- Choosing from a list succeeds if every step does. -/
theorem exists_filterMapM {f : α → Except ε (Option β)} {xs : List α} (h : ∀ x ∈ xs, ∃ o, f x = .ok o) :
    ∃ ys, xs.filterMapM f = .ok ys := by
  induction xs with
  | nil => exact ⟨[], rfl⟩
  | cons x xs ih =>
    obtain ⟨⟨o, ho⟩, hxs⟩ := List.forall_mem_cons.1 h
    obtain ⟨ys, hys⟩ := ih hxs
    rw [List.filterMapM_cons, ho, hys]
    cases o with
    | none => exact ⟨ys, rfl⟩
    | some y => exact ⟨y :: ys, rfl⟩

/-- Gathering from two lists, one behind the other. -/
theorem flatMapM_append (f : α → Except ε (List β)) (xs ys : List α) : (xs ++ ys).flatMapM f = do
    let front ← xs.flatMapM f
    let back ← ys.flatMapM f
    return front ++ back := by
  induction xs with
  | nil =>
    rw [List.nil_append]
    cases ys.flatMapM f <;> rfl
  | cons x xs ih =>
    rw [List.cons_append, List.flatMapM_cons, List.flatMapM_cons, ih]
    cases f x with
    | error e => rfl
    | ok front =>
      cases xs.flatMapM f with
      | error e => rfl
      | ok more => cases ys.flatMapM f <;> simp

theorem flatMapM_map {γ : Type} (g : γ → α) (f : α → Except ε (List β)) (xs : List γ) :
    (xs.map g).flatMapM f = xs.flatMapM fun x => f (g x) := by
  induction xs with
  | nil => rfl
  | cons x xs ih => rw [List.map_cons, List.flatMapM_cons, List.flatMapM_cons, ih]

theorem flatMapM_congr {f g : α → Except ε (List β)} {xs : List α} (h : ∀ x ∈ xs, f x = g x) :
    xs.flatMapM f = xs.flatMapM g := by
  induction xs with
  | nil => rfl
  | cons x xs ih =>
    obtain ⟨hx, hxs⟩ := List.forall_mem_cons.1 h
    rw [List.flatMapM_cons, List.flatMapM_cons, hx, ih hxs]

/-- Gathering succeeds only if every step does, and gives what the steps gave. -/
theorem mem_flatMapM {f : α → Except ε (List β)} {xs : List α} {ys : List β} (h : xs.flatMapM f = .ok ys) {y : β} :
    y ∈ ys ↔ ∃ x ∈ xs, ∃ zs, f x = .ok zs ∧ y ∈ zs := by
  induction xs generalizing ys with
  | nil =>
    cases h
    simp
  | cons x xs ih =>
    rw [List.flatMapM_cons] at h
    obtain ⟨front, hfront, h⟩ := bind_eq_ok_iff.1 h
    obtain ⟨back, hback, h⟩ := bind_eq_ok_iff.1 h
    cases h
    rw [List.mem_append, ih hback, List.exists_mem_cons_iff]
    apply or_congr _ Iff.rfl
    simp [hfront]

/-- Gathering succeeds exactly if every step does. -/
theorem exists_flatMapM_iff {f : α → Except ε (List β)} {xs : List α} :
    (∃ ys, xs.flatMapM f = .ok ys) ↔ ∀ x ∈ xs, ∃ zs, f x = .ok zs := by
  induction xs with
  | nil => simp
  | cons x xs ih =>
    rw [List.forall_mem_cons, ← ih, List.flatMapM_cons]
    constructor
    · rintro ⟨ys, h⟩
      obtain ⟨front, hfront, h⟩ := bind_eq_ok_iff.1 h
      obtain ⟨back, hback, -⟩ := bind_eq_ok_iff.1 h
      exact ⟨⟨front, hfront⟩, back, hback⟩
    · rintro ⟨⟨front, hfront⟩, back, hback⟩
      exact ⟨front ++ back, by simp [hfront, hback]⟩

/-- What is gathered from a list is without repetitions, if each part is, and no two parts have anything in common. -/
theorem nodup_map_flatMapM {γ : Type} {k : β → γ} {f : α → Except ε (List β)} {xs : List α} {ys : List β}
    (h : xs.flatMapM f = .ok ys) (hparts : ∀ x ∈ xs, ∀ zs, f x = .ok zs → (zs.map k).Nodup)
    (hapart : xs.Pairwise fun x x' => ∀ zs zs', f x = .ok zs → f x' = .ok zs' → ∀ z ∈ zs, ∀ z' ∈ zs', k z ≠ k z') :
    (ys.map k).Nodup := by
  induction xs generalizing ys with
  | nil =>
    cases h
    exact List.nodup_nil
  | cons x xs ih =>
    rw [List.flatMapM_cons] at h
    obtain ⟨zs, hzs, h⟩ := bind_eq_ok_iff.1 h
    obtain ⟨more, hmore, h⟩ := bind_eq_ok_iff.1 h
    cases h
    obtain ⟨hfirst, hrest⟩ := List.forall_mem_cons.1 hparts
    obtain ⟨hhead, htail⟩ := List.pairwise_cons.1 hapart
    rw [List.map_append, List.nodup_append]
    refine ⟨hfirst zs hzs, ih hmore hrest htail, ?_⟩
    intro c hc c' hc'
    obtain ⟨z, hz, rfl⟩ := List.mem_map.1 hc
    obtain ⟨z', hin, rfl⟩ := List.mem_map.1 hc'
    obtain ⟨x', hx', zs', hzs', hz'⟩ := (mem_flatMapM hmore).1 hin
    exact hhead x' hx' zs zs' hzs hzs' z hz z' hz'

/-- If gathering fails, a step fails in the same way. -/
theorem exists_of_flatMapM_eq_error {f : α → Except ε (List β)} {xs : List α} {e : ε}
    (h : xs.flatMapM f = .error e) : ∃ x ∈ xs, f x = .error e := by
  induction xs with
  | nil => cases h
  | cons x xs ih =>
    rw [List.flatMapM_cons] at h
    cases hx : f x with
    | error e' =>
      rw [hx] at h
      cases h
      exact ⟨x, List.mem_cons_self, hx⟩
    | ok front =>
      cases hxs : xs.flatMapM f with
      | ok back =>
        rw [hx, hxs] at h
        cases h
      | error e' =>
        rw [hx, hxs] at h
        cases h
        obtain ⟨z, hz, hfz⟩ := ih hxs
        exact ⟨z, List.mem_cons_of_mem _ hz, hfz⟩

/-- Steps without results succeed one after the other exactly if every one does. -/
theorem forM_eq_ok_iff {f : α → Except ε Unit} {xs : List α} : xs.forM f = .ok () ↔ ∀ x ∈ xs, f x = .ok () := by
  induction xs with
  | nil => simp
  | cons x xs ih =>
    rw [List.forM, bind_eq_ok_iff, List.forall_mem_cons, ← ih]
    exact ⟨fun ⟨_, hx, hxs⟩ => ⟨hx, hxs⟩, fun ⟨hx, hxs⟩ => ⟨(), hx, hxs⟩⟩

/-- If one of several steps without results fails, they all end in the same way. -/
theorem exists_of_forM_eq_error {f : α → Except ε Unit} {xs : List α} {e : ε} (h : xs.forM f = .error e) :
    ∃ x ∈ xs, f x = .error e := by
  induction xs with
  | nil => cases h
  | cons x xs ih =>
    rw [List.forM] at h
    cases hx : f x with
    | error e' =>
      rw [hx] at h
      cases h
      exact ⟨x, List.mem_cons_self, hx⟩
    | ok u =>
      rw [hx, ok_bind] at h
      obtain ⟨z, hz, hfz⟩ := ih h
      exact ⟨z, List.mem_cons_of_mem _ hz, hfz⟩

/-! ## What results and failures are like -/

/-- Whatever an outcome is, a result is of one kind and a failure of another. -/
structure Yields (x : Except ε α) (P : α → Prop) (R : ε → Prop) : Prop where
  of_ok : ∀ a, x = .ok a → P a
  of_error : ∀ e, x = .error e → R e

namespace Yields

variable {x : Except ε α} {f : α → Except ε β} {P P' : α → Prop} {Q : β → Prop} {R R' : ε → Prop}

theorem ok {a : α} (h : P a) : Yields (.ok a : Except ε α) P R where
  of_ok _ ha := Except.ok.inj ha ▸ h
  of_error _ he := nomatch he

theorem error {e : ε} (h : R e) : Yields (.error e : Except ε α) P R where
  of_ok _ ha := nomatch ha
  of_error _ he := Except.error.inj he ▸ h

theorem imp (h : Yields x P R) (hP : ∀ a, P a → P' a) (hR : ∀ e, R e → R' e) : Yields x P' R' :=
  ⟨fun a ha => hP a (h.of_ok a ha), fun e he => hR e (h.of_error e he)⟩

theorem bind (h : Yields x P R) (hf : ∀ a, x = .ok a → P a → Yields (f a) Q R) : Yields (x >>= f) Q R := by
  cases x with
  | error e => exact error (h.of_error e rfl)
  | ok a => exact hf a rfl (h.of_ok a rfl)

theorem ite {p : Prop} [Decidable p] {y : Except ε α} (hx : Yields x P R) (hy : Yields y P R) :
    Yields (if p then x else y) P R := by
  split
  · exact hx
  · exact hy

/-- Going through a list, if every step yields the same. -/
theorem mapM {xs : List α} (h : ∀ a ∈ xs, Yields (f a) Q R) : Yields (xs.mapM f) (∀ b ∈ ·, Q b) R where
  of_ok bs hbs b hb := by
    obtain ⟨a, ha, hab⟩ := (mem_mapM hbs).1 hb
    exact (h a ha).of_ok b hab
  of_error e he := by
    obtain ⟨a, ha, hfail⟩ := exists_of_mapM_eq_error he
    exact (h a ha).of_error e hfail

end Yields

/-! ## Outcomes in another order -/

/-- The two outcomes are lists of the same items, in whatever order, or one and the same failure. -/
inductive Shuffled : Except ε (List α) → Except ε (List α) → Prop
  | ok {xs ys : List α} (h : xs.Perm ys) : Shuffled (.ok xs) (.ok ys)
  | error (e : ε) : Shuffled (.error e) (.error e)

namespace Shuffled

variable {x y z : Except ε (List α)}

theorem refl : (x : Except ε (List α)) → Shuffled x x
  | .ok xs => .ok (.refl xs)
  | .error e => .error e

theorem trans (h : Shuffled x y) (k : Shuffled y z) : Shuffled x z := by
  cases h with
  | ok h =>
    cases k with
    | ok k => exact .ok (h.trans k)
  | error e => exact k

/-- Putting results in front of others. -/
theorem append {u v : Except ε (List α)} (h : Shuffled x y) (k : Shuffled u v) :
    Shuffled (do return (← x) ++ (← u)) (do return (← y) ++ (← v)) := by
  cases h with
  | error e => exact .error e
  | ok h =>
    cases k with
    | error e => exact .error e
    | ok k => exact .ok (h.append k)

end Shuffled

/-- Gathering what is the same up to its order. -/
theorem flatMapM_shuffled {f g : α → Except ε (List β)} {xs : List α} (h : ∀ x ∈ xs, Shuffled (f x) (g x)) :
    Shuffled (xs.flatMapM f) (xs.flatMapM g) := by
  induction xs with
  | nil => exact .refl _
  | cons x xs ih =>
    obtain ⟨hx, hxs⟩ := List.forall_mem_cons.1 h
    rw [List.flatMapM_cons, List.flatMapM_cons]
    exact hx.append (ih hxs)

/-- What is done to all gathered results, each part by itself, can be done to the results of each step. -/
theorem map_flatMapM_of_append {γ : Type} {φ : List β → List γ} (hnil : φ [] = [])
    (happend : ∀ xs ys, φ (xs ++ ys) = φ xs ++ φ ys) (f : α → Except ε (List β)) (xs : List α) :
    (xs.flatMapM f).map φ = xs.flatMapM fun x => (f x).map φ := by
  induction xs with
  | nil => exact congrArg Except.ok hnil
  | cons x xs ih =>
    rw [List.flatMapM_cons, List.flatMapM_cons, ← ih]
    cases f x with
    | error e => rfl
    | ok front =>
      cases xs.flatMapM f with
      | error e => rfl
      | ok back => simp [Except.map, happend]

theorem map_flatMapM {γ : Type} (f : α → Except ε (List β)) (k : β → γ) (xs : List α) :
    (xs.flatMapM f).map (List.map k) = xs.flatMapM fun x => (f x).map (List.map k) :=
  map_flatMapM_of_append rfl (fun _ _ => List.map_append) f xs

theorem filter_flatMapM (f : α → Except ε (List β)) (p : β → Bool) (xs : List α) :
    (xs.flatMapM f).map (List.filter p) = xs.flatMapM fun x => (f x).map (List.filter p) :=
  map_flatMapM_of_append rfl (fun _ _ => List.filter_append ..) f xs

/-- Gathering from a list in another order, if only one failure is possible. -/
theorem flatMapM_perm {f : α → Except ε (List β)} {xs ys : List α} (h : xs.Perm ys) (e₀ : ε)
    (hf : ∀ x ∈ xs, ∀ e, f x = .error e → e = e₀) : Shuffled (xs.flatMapM f) (ys.flatMapM f) := by
  induction h with
  | nil => exact .refl _
  | @cons x xs ys _ ih =>
    have hrest := ih fun y hy => hf y (List.mem_cons_of_mem _ hy)
    rw [List.flatMapM_cons, List.flatMapM_cons]
    exact (Shuffled.refl (f x)).append hrest
  | swap x y xs =>
    have hx := hf x (List.mem_cons_of_mem _ List.mem_cons_self)
    have hy := hf y List.mem_cons_self
    simp only [List.flatMapM_cons]
    cases hfx : f x with
    | error e =>
      cases hfy : f y with
      | error e' =>
        rw [hx e hfx, hy e' hfy]
        exact .error e₀
      | ok back => exact .error e
    | ok front =>
      cases hfy : f y with
      | error e' => exact .error e'
      | ok back =>
        cases xs.flatMapM f with
        | error e => exact .error e
        | ok rest =>
          have hperm : (back ++ (front ++ rest)).Perm (front ++ (back ++ rest)) := by
            rw [← List.append_assoc, ← List.append_assoc]
            exact List.perm_append_comm.append_right rest
          exact .ok hperm
  | trans h _ ih ih' =>
    have hfirst := ih hf
    have hsecond := ih' fun y hy => hf y (h.mem_iff.2 hy)
    exact hfirst.trans hsecond

/-- A fold succeeds if every step does, as long as an invariant holds, which may mention the items that are left. -/
theorem foldlM_invariant {f : β → α → Except ε β} (I : List α → β → Prop)
    (step : ∀ a l b, I (a :: l) b → ∃ b', f b a = .ok b' ∧ I l b') :
    ∀ {l : List α} {b : β}, I l b → ∃ r, l.foldlM f b = .ok r ∧ I [] r
  | [], b, h => ⟨b, rfl, h⟩
  | a :: l, b, h => by
    obtain ⟨b', hb', h'⟩ := step a l b h
    obtain ⟨r, hr, hI⟩ := foldlM_invariant I step h'
    exact ⟨r, by rw [List.foldlM_cons, hb', ok_bind, hr], hI⟩

end Hyperchess.Outcome
