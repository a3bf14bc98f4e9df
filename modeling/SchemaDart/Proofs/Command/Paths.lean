import Mathlib.Data.List.Basic
import SchemaDart.Command.Path

/-!
# Where paths lead

An absolute path leads elsewhere than a relative one (`root_mem_components_iff`).

Pieces without slashes that are joined by slashes are split into the same pieces (`piecesOf_intercalate`).  So a path
that is put together from the first pieces of a path has the names among these (`components_join`): it is absolute if
the path is, since pieces are left out at the end only.  The parent of a path is put together in this way, and so names
what the path names without its last name (`components_parent`).
-/

namespace SchemaDart
namespace Command
namespace Path

/-! ## Splitting and joining -/

theorem piecesOf_cons_of_ne {c : Char} (hc : c ≠ '/') {cs piece : List Char} {pieces : List (List Char)}
    (h : piecesOf cs = piece :: pieces) : piecesOf (c :: cs) = (c :: piece) :: pieces := by
  rw [piecesOf, h]
  exact hc

theorem piecesOf_append_slash {p : List Char} (hp : '/' ∉ p) (cs : List Char) :
    piecesOf (p ++ '/' :: cs) = p :: piecesOf cs := by
  induction p with
  | nil => rfl
  | cons c p ih =>
    rw [List.mem_cons, not_or] at hp
    exact piecesOf_cons_of_ne (Ne.symm hp.1) (ih hp.2)

theorem piecesOf_of_not_mem {p : List Char} (hp : '/' ∉ p) : piecesOf p = [p] := by
  induction p with
  | nil => rfl
  | cons c p ih =>
    rw [List.mem_cons, not_or] at hp
    exact piecesOf_cons_of_ne (Ne.symm hp.1) (ih hp.2)

/-- Pieces that are joined by slashes are found again. -/
theorem piecesOf_intercalate (p : List Char) (ps : List (List Char)) (h : ∀ q ∈ p :: ps, '/' ∉ q) :
    piecesOf (['/'].intercalate (p :: ps)) = p :: ps := by
  induction ps generalizing p with
  | nil =>
    rw [List.intercalate_singleton]
    exact piecesOf_of_not_mem (h p List.mem_cons_self)
  | cons q ps ih =>
    rw [List.intercalate_cons_cons, List.append_assoc, List.singleton_append,
      piecesOf_append_slash (h p List.mem_cons_self), ih q fun q' hq' => h q' (List.mem_cons_of_mem p hq')]

theorem not_mem_of_mem_piecesOf {cs p : List Char} (h : p ∈ piecesOf cs) : '/' ∉ p := by
  induction cs generalizing p with
  | nil =>
    rw [List.mem_singleton.mp h]
    exact List.not_mem_nil
  | cons c cs ih =>
    by_cases hc : c = '/'
    · subst hc
      rcases List.mem_cons.mp h with rfl | hp
      · exact List.not_mem_nil
      · exact ih hp
    · cases hcs : piecesOf cs with
      | nil =>
        rw [piecesOf, hcs] at h
        · rw [List.mem_singleton.mp h, List.mem_singleton]
          exact Ne.symm hc
        · exact hc
      | cons piece pieces =>
        rw [piecesOf_cons_of_ne hc hcs] at h
        rw [hcs] at ih
        rcases List.mem_cons.mp h with rfl | hp
        · rw [List.mem_cons, not_or]
          exact ⟨Ne.symm hc, ih List.mem_cons_self⟩
        · exact ih (List.mem_cons_of_mem piece hp)

theorem exists_piecesOf_cons {c : Char} (hc : c ≠ '/') (cs : List Char) :
    ∃ piece pieces, piecesOf (c :: cs) = (c :: piece) :: pieces := by
  cases hcs : piecesOf cs with
  | nil =>
    refine ⟨[], [], ?_⟩
    rw [piecesOf, hcs]
    exact hc
  | cons piece pieces => exact ⟨piece, pieces, piecesOf_cons_of_ne hc hcs⟩

/-- No slash gets in front if pieces are left out at the end. -/
theorem head?_intercalate {cs q : List Char} {qs : List (List Char)} (hcs : cs.head? ≠ some '/')
    (h : q :: qs <+: piecesOf cs) : (['/'].intercalate (q :: qs)).head? ≠ some '/' := by
  cases cs with
  | nil =>
    obtain ⟨rfl, hqs⟩ := List.cons_prefix_cons.mp h
    rw [List.prefix_nil.mp hqs, List.intercalate_singleton]
    exact hcs
  | cons c cs =>
    have hc : c ≠ '/' := fun hc => hcs (congrArg some hc)
    obtain ⟨piece, pieces, hpieces⟩ := exists_piecesOf_cons hc cs
    rw [hpieces] at h
    obtain ⟨rfl, -⟩ := List.cons_prefix_cons.mp h
    cases qs with
    | nil =>
      rw [List.intercalate_singleton]
      exact hcs
    | cons q' qs =>
      rw [List.intercalate_cons_cons]
      exact hcs

theorem relative_intercalate {cs : List Char} {p : String} {ps : List String} (hcs : cs.head? ≠ some '/')
    (h : p :: ps <+: (piecesOf cs).map String.ofList) : ("/".intercalate (p :: ps)).toList.head? ≠ some '/' := by
  obtain ⟨qs, hqs, heq⟩ := List.prefix_map_iff.mp h
  cases qs with
  | nil => cases heq
  | cons q qs =>
    have htext : ("/".intercalate ((q :: qs).map String.ofList)).toList = ['/'].intercalate (q :: qs) := by
      simp [String.toList_intercalate]
    rw [heq, htext]
    exact head?_intercalate hcs hqs

/-- The names in a text that is put together from pieces are those among the pieces. -/
theorem filter_piecesOf_intercalate {ps : List String} (h : ∀ p ∈ ps, '/' ∉ p.toList) :
    ((piecesOf ("/".intercalate ps).toList).map String.ofList).filter isName = ps.filter isName := by
  cases ps with
  | nil => rfl
  | cons p ps =>
    have hslash : "/".toList = ['/'] := rfl
    rw [String.toList_intercalate, List.map_cons, hslash, piecesOf_intercalate]
    · simp
    · rw [← List.map_cons]
      intro q hq
      obtain ⟨p', hp', rfl⟩ := List.mem_map.mp hq
      exact h p' hp'

/-! ## The root -/

theorem pieces_absolute {path : String} {cs : List Char} (h : path.toList = '/' :: cs) :
    pieces path = root :: (piecesOf cs).map String.ofList := by
  unfold pieces
  rw [h]
  rfl

theorem pieces_relative {path : String} (h : path.toList.head? ≠ some '/') :
    pieces path = (piecesOf path.toList).map String.ofList := by
  unfold pieces
  split
  · next cs hcs =>
    rw [hcs] at h
    exact absurd rfl h
  · rfl

theorem not_mem_of_mem_map_piecesOf {cs : List Char} {p : String} (h : p ∈ (piecesOf cs).map String.ofList) :
    '/' ∉ p.toList := by
  obtain ⟨q, hq, rfl⟩ := List.mem_map.mp h
  rw [String.toList_ofList]
  exact not_mem_of_mem_piecesOf hq

theorem ne_root_of_not_mem {p : String} (h : '/' ∉ p.toList) : p ≠ root := by
  rintro rfl
  exact h List.mem_cons_self

/-- **Absolute paths lead elsewhere than relative ones**: the root is among their components, and only among theirs. -/
theorem root_mem_components_iff (path : String) : root ∈ components path ↔ path.toList.head? = some '/' := by
  unfold components
  constructor
  · intro h
    by_contra hrelative
    rw [pieces_relative hrelative] at h
    exact ne_root_of_not_mem (not_mem_of_mem_map_piecesOf (List.mem_of_mem_filter h)) rfl
  · intro h
    obtain ⟨cs, hcs⟩ := List.head?_eq_some_iff.mp h
    rw [pieces_absolute hcs]
    exact List.mem_filter.mpr ⟨List.mem_cons_self, rfl⟩

example : components "/out//a.dart" = ["/", "out", "a.dart"] ∧ components "./out/a.dart" = ["out", "a.dart"] := by decide

/-- The names in a path that is put together from the first pieces of a path are those among the pieces. -/
theorem components_join {path : String} {ps : List String} (h : ps <+: pieces path) :
    components (join ps) = ps.filter isName := by
  cases ps with
  | nil => rfl
  | cons p ps =>
    by_cases hpath : path.toList.head? = some '/'
    · obtain ⟨cs, hcs⟩ := List.head?_eq_some_iff.mp hpath
      rw [pieces_absolute hcs] at h
      obtain ⟨rfl, hps⟩ := List.cons_prefix_cons.mp h
      have hjoin : (join (root :: ps)).toList = '/' :: ("/".intercalate ps).toList := by
        rw [join, if_pos rfl, String.toList_append]
        rfl
      unfold components
      rw [pieces_absolute hjoin, List.filter_cons_of_pos rfl, List.filter_cons_of_pos rfl,
        filter_piecesOf_intercalate fun p hp => not_mem_of_mem_map_piecesOf (hps.subset hp)]
    · rw [pieces_relative hpath] at h
      have hslash : ∀ q ∈ p :: ps, '/' ∉ q.toList := fun q hq => not_mem_of_mem_map_piecesOf (h.subset hq)
      have hjoin : join (p :: ps) = "/".intercalate (p :: ps) := by
        rw [join, if_neg (ne_root_of_not_mem (hslash p List.mem_cons_self))]
      unfold components
      rw [hjoin, pieces_relative (relative_intercalate hpath h), filter_piecesOf_intercalate hslash]

/-! ## Parents -/

theorem dropUnnamed_suffix (ps : List String) : dropUnnamed ps <:+ ps := by
  fun_induction dropUnnamed ps with
  | case1 => exact List.suffix_refl _
  | case2 => exact List.suffix_refl _
  | case3 piece pieces _ _ => exact List.suffix_refl _
  | case4 piece pieces _ _ ih => exact ih.trans (List.suffix_cons piece pieces)

theorem filter_dropUnnamed (ps : List String) : (dropUnnamed ps).filter isName = ps.filter isName := by
  fun_induction dropUnnamed ps with
  | case1 => rfl
  | case2 => rfl
  | case3 piece pieces _ _ => rfl
  | case4 piece pieces _ hpiece ih => rw [ih, List.filter_cons_of_neg hpiece]

/-- What is left begins with a name, unless no name is left. -/
theorem filter_drop_dropUnnamed (ps : List String) :
    ((dropUnnamed ps).drop 1).filter isName = (ps.filter isName).tail := by
  fun_induction dropUnnamed ps with
  | case1 => rfl
  | case2 => rfl
  | case3 piece pieces _ hpiece => rw [List.filter_cons_of_pos hpiece, List.tail_cons, List.drop_one, List.tail_cons]
  | case4 piece pieces _ hpiece ih => rw [ih, List.filter_cons_of_neg hpiece]

/-- **The parent of a path leads to where the path leads without its last name.** -/
theorem components_parent (path : String) : components (parent path) = (components path).dropLast := by
  have hfirst : (dropUnnamed ((dropUnnamed (pieces path).reverse).drop 1)).reverse <+: pieces path := by
    rw [← List.reverse_suffix, List.reverse_reverse]
    exact (dropUnnamed_suffix _).trans ((List.drop_suffix 1 _).trans (dropUnnamed_suffix _))
  unfold parent
  rw [components_join hfirst, List.filter_reverse, filter_dropUnnamed, filter_drop_dropUnnamed, List.filter_reverse,
    List.tail_reverse, List.reverse_reverse]
  rfl

example : parent "/a" = "/" ∧ parent "./a" = "." ∧ parent "a" = "" ∧ parent "/" = "" := by decide

end Path
end Command
end SchemaDart
