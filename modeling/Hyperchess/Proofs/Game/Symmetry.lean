import Hyperchess.Proofs.Game.Membership
import Hyperchess.Proofs.Safety.Symmetry

/-!
# Moves on boards turned around

If the rules respect a symmetry, the moves of a square are carried onto those of its image (`movesOf_image`). The index
of the image may list the pieces in any order, so that the moves of a team are carried onto those of its image in
whatever order (`movesFrom_image`).
-/

namespace Hyperchess.Board

variable {size : Coord} {σ : Symmetry size} {a b : Board} {v : Variant} {team : Data} {c : Coord} {safe : Bool}

/-- The squares of a team are carried onto those of its image. -/
theorem stations_image (h : Image σ a b) (team : Data) :
    (b.stations (σ.team team)).Perm ((a.stations team).map σ.square) := by
  have hnodup : ((a.stations team).map σ.square).Nodup :=
    (nodup_stations h.left_sound team).map fun _ _ he => Symmetry.square_inj.1 he
  apply (List.perm_ext_iff_of_nodup (nodup_stations h.right_sound _) hnodup).2
  intro d
  rw [mem_stations h.right_sound, List.mem_map]
  constructor
  · rintro ⟨q, hq, hteam⟩
    obtain ⟨c, rfl⟩ := σ.exists_eq_square d
    obtain ⟨p, hp, himage⟩ := h.exists_preimage hq
    rw [himage.team, σ.same_team] at hteam
    exact ⟨c, (mem_stations h.left_sound).2 ⟨p, hp, hteam⟩, rfl⟩
  · rintro ⟨c, hc, rfl⟩
    obtain ⟨p, hp, hteam⟩ := (mem_stations h.left_sound).1 hc
    obtain ⟨q, hq, himage⟩ := h.exists_image hp
    exact ⟨q, hq, by rw [himage.team, σ.same_team, hteam]⟩

section Moves

variable (h : Image σ a b) (hbook : v.book.Respects σ) (hruled : a.Ruled v.book)

include h hbook hruled

/-- **The moves of a square are carried onto those of its image.** -/
theorem movesOf_image (hc : a.contains c = true) (safe : Bool) :
    Outcome.Shuffled ((a.movesOf v c safe).map (List.map σ.move)) (b.movesOf v (σ.square c) safe) := by
  cases hp : a.pieceAt c with
  | none =>
    have hempty : b.pieceAt (σ.square c) = none := by
      apply Option.not_isSome_iff_eq_none.1
      rw [h.isSome_pieceAt, hp]
      exact Bool.false_ne_true
    have hc' : b.contains (σ.square c) = true := (h.contains_eq c).trans hc
    rw [movesOf, movesOf, h.left_sound.populated.get_eq hc, h.right_sound.populated.get_eq hc', hp, hempty]
    exact .ok .nil
  | some p =>
    have hget := pieceAt_eq_some_iff.1 hp
    obtain ⟨q, hq, himage⟩ := h.exists_image hget
    obtain ⟨found, found', hfound, hfound', hperm⟩ := hbook h hruled hget
    rw [movesOf_piece hget, movesOf_piece hq, hfound, hfound', Outcome.ok_bind, Outcome.ok_bind, himage.team]
    cases safe with
    | false => exact .ok hperm.symm
    | true => exact unexposed_image h hbook hruled (candidates_ends h.left_sound.populated hfound) hperm p.team

theorem movesOf_image_error (hc : a.contains c = true) {e : Fault} (hfail : a.movesOf v c safe = .error e) :
    e = .wrongType := by
  cases hp : a.pieceAt c with
  | none =>
    rw [movesOf, h.left_sound.populated.get_eq hc, hp] at hfail
    cases hfail
  | some p =>
    have hget := pieceAt_eq_some_iff.1 hp
    obtain ⟨found, -, hfound, -⟩ := hbook h hruled hget
    rw [movesOf_piece hget, hfound, Outcome.ok_bind] at hfail
    cases safe with
    | false => cases hfail
    | true => exact unexposed_image_error h hbook hruled (candidates_ends h.left_sound.populated hfound) hfail

/-- **The moves of a team are carried onto those of its image**, in whatever order. -/
theorem movesFrom_image (team : Data) (safe : Bool) :
    Outcome.Shuffled ((a.movesFrom v team safe a.index).map (List.map σ.move))
      (b.movesFrom v (σ.team team) safe b.index) := by
  have hcontains {c : Coord} (hc : c ∈ a.stations team) : a.contains c = true := by
    obtain ⟨p, hp, -⟩ := (mem_stations h.left_sound).1 hc
    exact ((get_eq_ok_iff h.left_sound.toFramed).1 hp).1
  have hsquares : Outcome.Shuffled ((a.movesFrom v team safe a.index).map (List.map σ.move))
      (((a.stations team).map σ.square).flatMapM fun d => b.movesOf v d safe) := by
    rw [movesFrom_index h.left_sound, Outcome.map_flatMapM, Outcome.flatMapM_map]
    apply Outcome.flatMapM_shuffled
    intro c hc
    exact movesOf_image h hbook hruled (hcontains hc) safe
  apply hsquares.trans
  rw [movesFrom_index h.right_sound]
  apply Outcome.flatMapM_perm (stations_image h team).symm .wrongType
  intro d hd e hfail
  obtain ⟨c, hc, rfl⟩ := List.mem_map.1 hd
  have hshuffled := movesOf_image h hbook hruled (hcontains hc) safe
  rw [hfail] at hshuffled
  cases hmoves : a.movesOf v c safe with
  | ok moves =>
    rw [hmoves] at hshuffled
    cases hshuffled
  | error f =>
    rw [hmoves] at hshuffled
    cases hshuffled
    exact movesOf_image_error h hbook hruled (hcontains hc) hmoves

end Moves

end Hyperchess.Board
