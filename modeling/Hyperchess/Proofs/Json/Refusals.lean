import Hyperchess.Json.Reader
import Hyperchess.Proofs.Outcome
import Mathlib.Data.List.Infix
import Mathlib.Data.List.TakeWhile

/-!
# Why JSON is not read

Every part of the reader leaves the end of the characters that it is given (`Sound`). So when a text is not read, the
reason is to be found in the text (`readWithin_refused`): it is malformed, there is a run of digits in it that is longer
than an integer may be, or there are more brackets in it than lists and maps may be inside one another.
-/

namespace Hyperchess.Json

variable {α β : Type} {room fuel : Nat} {cs rest : List Char} {e : ReadError}

/-! ## Reasons -/

/-- The character begins a list or a map. -/
def opens (c : Char) : Bool := c == '[' || c == '\x7b'

/-- Why characters may not be read, with room for so many lists and maps inside one another. -/
inductive Refusal (room : Nat) (cs : List Char) : ReadError → Prop
  | malformed : Refusal room cs .malformed
  | oversized (run : List Char) (hrun : run <:+: cs) (hdigits : ∀ c ∈ run, c.isDigit = true)
      (hlong : Integer.digitLimit < run.length) : Refusal room cs (.oversized run.length)
  | tooDeep (h : room < cs.countP opens) : Refusal room cs .tooDeep

/-- A reason at the end of characters is one in all of them. -/
theorem Refusal.of_suffix (h : Refusal room rest e) (hrest : rest <:+ cs) : Refusal room cs e := by
  cases h with
  | malformed => exact .malformed
  | oversized run hrun hdigits hlong => exact .oversized run (hrun.trans hrest.isInfix) hdigits hlong
  | tooDeep h => exact .tooDeep (Nat.lt_of_lt_of_le h (hrest.sublist.countP_le))

/-- A list or a map takes up room, and a character. -/
theorem Refusal.of_inside {c : Char} (hopens : opens c = true) (h : Refusal room rest e) :
    Refusal (room + 1) (c :: rest) e := by
  cases h with
  | malformed => exact .malformed
  | oversized run hrun hdigits hlong =>
    exact .oversized run (hrun.trans (List.suffix_cons c rest).isInfix) hdigits hlong
  | tooDeep h =>
    refine .tooDeep ?_
    rw [List.countP_cons_of_pos hopens]
    omega

/-- A reading leaves the end of the characters, or there is a reason in them why it fails. -/
def Sound (room : Nat) (cs : List Char) (x : Except ReadError (α × List Char)) : Prop :=
  Outcome.Yields x (fun r => r.2 <:+ cs) (Refusal room cs)

namespace Sound

variable {x : Except ReadError (α × List Char)}

theorem of_suffix (h : Sound room rest x) (hrest : rest <:+ cs) : Sound room cs x :=
  h.imp (fun _ hr => hr.trans hrest) fun _ he => he.of_suffix hrest

theorem bind {f : α × List Char → Except ReadError (β × List Char)} (h : Sound room cs x)
    (hf : ∀ a rest, rest <:+ cs → Sound room rest (f (a, rest))) : Sound room cs (x >>= f) :=
  Outcome.Yields.bind h fun r _ hr => (hf r.1 r.2 hr).of_suffix hr

theorem pure {a : α} (h : rest <:+ cs) : Sound room cs (.ok (a, rest)) := .ok h

theorem malformed : Sound room cs (.error .malformed : Except ReadError (α × List Char)) := .error .malformed

end Sound

/-- What is inside a list or a map has less room. -/
theorem sound_enter {c : Char} {f : Nat → Except ReadError (α × List Char)} (hopens : opens c = true)
    (h : ∀ inside, Sound inside rest (f inside)) : Sound room (c :: rest) (enter room >>= f) := by
  match room with
  | 0 => exact .error (.tooDeep (by simp [hopens]))
  | inside + 1 =>
    exact (h inside).imp (fun _ hr => hr.trans (List.suffix_cons c rest)) fun _ he => he.of_inside hopens

theorem skipSpaces_suffix (cs : List Char) : skipSpaces cs <:+ cs := List.dropWhile_suffix _

/-! ## Texts -/

theorem hexQuad?_suffix {n : Nat} (h : hexQuad? cs = some (n, rest)) : rest <:+ cs := by
  unfold hexQuad? at h
  split at h
  · simp only [Option.pure_def, Option.bind_eq_bind, Option.bind_eq_some_iff, Option.some.injEq, Prod.mk.injEq] at h
    obtain ⟨_, -, _, -, _, -, _, -, -, rfl⟩ := h
    exact ⟨[_, _, _, _], rfl⟩
  · cases h

theorem lowHalf?_suffix {n : Nat} (h : lowHalf? cs = some (n, rest)) : rest <:+ cs := by
  unfold lowHalf? at h
  split at h
  · rename_i behind
    obtain ⟨⟨m, left⟩, hquad, h⟩ := Option.bind_eq_some_iff.1 h
    dsimp only at h
    split at h
    · cases h
      exact (hexQuad?_suffix hquad).trans ⟨['\\', 'u'], rfl⟩
    · cases h
  · cases h

theorem unicodeEscape?_suffix {p : CodePoint} (h : unicodeEscape? cs = some (p, rest)) : rest <:+ cs := by
  obtain ⟨⟨n, left⟩, hquad, h⟩ := Option.bind_eq_some_iff.1 h
  have hleft := hexQuad?_suffix hquad
  dsimp only at h
  split at h
  · split at h
    · rename_i hlow
      obtain ⟨-, rfl⟩ := Prod.mk.inj (Option.some.inj h)
      exact (lowHalf?_suffix hlow).trans hleft
    · obtain ⟨-, rfl⟩ := Prod.mk.inj (Option.some.inj h)
      exact hleft
  · obtain ⟨-, rfl⟩ := Prod.mk.inj (Option.some.inj h)
    exact hleft

theorem textBody_suffix {body : List CodePoint} (h : textBody fuel cs = some (body, rest)) : rest <:+ cs := by
  fun_induction textBody fuel cs generalizing body rest with
  | case1 | case2 => cases h
  | case3 =>
    cases h
    exact List.suffix_cons ..
  | case4 fuel behind ih =>
    obtain ⟨⟨p, left⟩, hescape, h⟩ := Option.bind_eq_some_iff.1 h
    obtain ⟨⟨more, last⟩, hmore, h⟩ := Option.bind_eq_some_iff.1 h
    cases h
    exact ((ih _ hmore).trans (unicodeEscape?_suffix hescape)).trans ⟨['\\', 'u'], rfl⟩
  | case5 fuel c behind hu ih =>
    obtain ⟨d, -, h⟩ := Option.bind_eq_some_iff.1 h
    obtain ⟨⟨more, left⟩, hmore, h⟩ := Option.bind_eq_some_iff.1 h
    cases h
    exact (ih hmore).trans ⟨['\\', _], rfl⟩
  | case6 => cases h
  | case7 fuel c behind _ _ _ _ ih =>
    obtain ⟨⟨more, left⟩, hmore, h⟩ := Option.bind_eq_some_iff.1 h
    cases h
    exact (ih hmore).trans (List.suffix_cons ..)

theorem text_sound (cs : List Char) : Sound room cs (text cs) := by
  unfold text
  split
  · rename_i h
    exact .pure (textBody_suffix h)
  · exact .malformed

/-! ## Numbers and words -/

theorem digitRun_suffix (cs : List Char) : (digitRun cs).2 <:+ cs := by
  rw [digitRun, List.span_eq_takeWhile_dropWhile]
  exact List.dropWhile_suffix _

theorem fraction?_suffix {places : List Char} (h : fraction? cs = some (places, rest)) : rest <:+ cs := by
  unfold fraction? at h
  split at h
  · rename_i c behind
    split at h
    · have hrest : (digitRun (c :: behind)).2 = rest := congrArg Prod.snd (Option.some.inj h)
      rw [← hrest]
      exact (digitRun_suffix _).trans (List.suffix_cons ..)
    · cases h
  · cases h

theorem exponentBody?_suffix {n : Int} (h : exponentBody? cs = some (n, rest)) : rest <:+ cs := by
  unfold exponentBody? at h
  extract_lets signed at h
  have hsigned : signed.2 <:+ cs := by
    unfold signed
    split
    · exact List.suffix_cons ..
    · exact List.suffix_cons ..
    · exact List.suffix_rfl
  split at h
  · cases h
  · rename_i hrun
    have hrest := digitRun_suffix signed.2
    rw [hrun] at hrest
    obtain ⟨-, rfl⟩ := Prod.mk.inj (Option.some.inj h)
    exact hrest.trans hsigned

theorem exponent?_suffix {n : Int} (h : exponent? cs = some (n, rest)) : rest <:+ cs := by
  unfold exponent? at h
  split at h
  · split at h
    · exact (exponentBody?_suffix h).trans (List.suffix_cons ..)
    · cases h
  · cases h

/-- What is left behind a part that may be missing is the end of the characters. -/
theorem behind_suffix {part? : Option (α × List Char)} (h : ∀ a rest, part? = some (a, rest) → rest <:+ cs) :
    (part?.map (·.2)).getD cs <:+ cs := by
  cases part? with
  | none => exact List.suffix_rfl
  | some r => exact h r.1 r.2 rfl

theorem unsigned_sound (negative : Bool) (cs : List Char) : Sound room cs (unsigned negative cs) := by
  unfold unsigned
  extract_lets whole fraction afterFraction exponent rest
  have hwhole : whole.1 ++ whole.2 = cs ∧ ∀ c ∈ whole.1, c.isDigit = true := by
    unfold whole
    split
    · simp
    · rw [digitRun, List.span_eq_takeWhile_dropWhile]
      exact ⟨List.takeWhile_append_dropWhile, fun c hc => List.mem_takeWhile_imp hc⟩
  have hfraction : afterFraction <:+ whole.2 := behind_suffix fun _ _ h => fraction?_suffix h
  have hexponent : rest <:+ afterFraction := behind_suffix fun _ _ h => exponent?_suffix h
  have hrest : rest <:+ cs := (hexponent.trans hfraction).trans ⟨whole.1, hwhole.1⟩
  split
  · exact .malformed
  · split
    · split
      · rename_i hlong
        exact .error (.oversized whole.1 ⟨[], whole.2, hwhole.1⟩ hwhole.2 hlong)
      · exact .pure hrest
    · exact .pure hrest

theorem word_sound (word front cs : List Char) (d : Data) :
    Sound room (front ++ cs) (scalar.orMalformed ((afterWord? word cs).map fun r => (d, r))) := by
  unfold afterWord?
  split
  · exact .pure ((List.drop_suffix _ cs).trans (List.suffix_append ..))
  · exact .malformed

theorem scalar_sound (cs : List Char) : Sound room cs (scalar cs) := by
  unfold scalar
  split
  · exact word_sound "ull".toList ['n'] ..
  · exact word_sound "rue".toList ['t'] ..
  · exact word_sound "alse".toList ['f'] ..
  · exact word_sound "aN".toList ['N'] ..
  · exact word_sound "nfinity".toList ['I'] ..
  · exact word_sound "nfinity".toList ['-', 'I'] ..
  · exact (unsigned_sound true _).of_suffix (List.suffix_cons ..)
  · exact unsigned_sound false _

/-! ## Values

The induction is on the fuel. -/

mutual

theorem value_sound (room fuel : Nat) (cs : List Char) : Sound room cs (value room fuel cs) := by
  match fuel with
  | 0 => exact .malformed
  | fuel + 1 =>
    rw [value]
    refine Sound.of_suffix ?_ (skipSpaces_suffix cs)
    split
    · rename_i behind h
      rw [h]
      refine Sound.of_suffix ?_ (List.suffix_cons ..)
      exact (text_sound behind).bind fun s rest _ => .pure List.suffix_rfl
    · rename_i behind h
      rw [h]
      refine sound_enter rfl fun inside => ?_
      refine Sound.of_suffix ?_ (skipSpaces_suffix behind)
      split
      · rename_i h
        rw [h]
        exact .pure (List.suffix_cons ..)
      · exact (items_sound inside fuel _).bind fun items rest _ => .pure List.suffix_rfl
    · rename_i behind h
      rw [h]
      refine sound_enter rfl fun inside => ?_
      refine Sound.of_suffix ?_ (skipSpaces_suffix behind)
      split
      · rename_i h
        rw [h]
        exact .pure (List.suffix_cons ..)
      · exact (entries_sound inside fuel [] _).bind fun entries rest _ => .pure List.suffix_rfl
    · exact scalar_sound _

theorem items_sound (room fuel : Nat) (cs : List Char) : Sound room cs (items room fuel cs) := by
  match fuel with
  | 0 => exact .malformed
  | fuel + 1 =>
    rw [items]
    refine (value_sound room fuel cs).bind fun x rest hrest => ?_
    refine Sound.of_suffix ?_ (skipSpaces_suffix rest)
    dsimp only
    split
    · rename_i behind h
      rw [h]
      refine Sound.of_suffix ?_ (List.suffix_cons ..)
      exact (items_sound room fuel behind).bind fun more rest _ => .pure List.suffix_rfl
    · rename_i behind h
      rw [h]
      exact .pure (List.suffix_cons ..)
    · exact .malformed

theorem entries_sound (room fuel : Nat) (done : List (Data × Data)) (cs : List Char) :
    Sound room cs (entries room fuel done cs) := by
  match fuel with
  | 0 => exact .malformed
  | fuel + 1 =>
    rw [entries]
    refine Sound.of_suffix ?_ (skipSpaces_suffix cs)
    split
    · rename_i behind h
      rw [h]
      refine Sound.of_suffix ?_ (List.suffix_cons ..)
      refine (text_sound behind).bind fun key rest _ => ?_
      refine Sound.of_suffix ?_ (skipSpaces_suffix rest)
      dsimp only
      split
      · rename_i behind h
        rw [h]
        refine Sound.of_suffix ?_ (List.suffix_cons ..)
        refine (value_sound room fuel behind).bind fun x rest _ => ?_
        refine Sound.of_suffix ?_ (skipSpaces_suffix rest)
        dsimp only
        split
        · rename_i behind h
          rw [h]
          exact (entries_sound room fuel _ behind).of_suffix (List.suffix_cons ..)
        · rename_i behind h
          rw [h]
          exact .pure (List.suffix_cons ..)
        · exact .malformed
      · exact .malformed
    · exact .malformed

end

/-- **A text is not read only for a reason that is in it.** -/
theorem readWithin_refused {s : String} (h : readWithin room s = .error e) : Refusal room s.toList e := by
  have hvalue : Sound room s.toList (value room (2 * s.toList.length + 2) s.toList) := value_sound ..
  have hread : Outcome.Yields (readWithin room s) (fun _ => True) (Refusal room s.toList) := by
    refine Outcome.Yields.bind hvalue fun r _ _ => ?_
    dsimp only
    split
    · exact .ok trivial
    · exact .error .malformed
  exact hread.of_error e h

end Hyperchess.Json
