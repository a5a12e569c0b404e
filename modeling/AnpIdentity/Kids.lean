import AnpIdentity.Input
import Mathlib.Data.List.Forall2

/-! Key ids. A kid may be given as a fragment, with a hash before it, or in full after its DID; all three stand for the
same canonical kid, and no kid stands for keys of two DIDs. -/

namespace AnpIdentity
open Text

section
variable {did other kid canonical fragment head rest s : String} {c : Char}

theorem strip_some : strip s head = some rest ↔ s = head ++ rest := by
  unfold strip startsWith
  constructor
  · intro stripped
    split at stripped
    · rename_i starts
      obtain ⟨tail, same⟩ := List.isPrefixOf_iff_prefix.mp starts
      cases stripped
      apply String.toList_inj.mp
      rw [String.toList_append, String.toList_ofList, ← same, List.drop_left]
    · cases stripped
  · rintro rfl
    have starts : head.toList.isPrefixOf (head ++ rest).toList = true := by simp
    rw [if_pos starts, String.toList_append, List.drop_left, String.ofList_toList]

theorem strip_none (other : ∀ rest, s ≠ head ++ rest) : strip s head = none := by
  cases stripped : strip s head with
  | none => rfl
  | some rest => exact absurd (strip_some.mp stripped) (other rest)

theorem validateFragment_clear (valid : validateFragment fragment = .ok ()) (other : isIdentifierByte c = false) :
    c ∉ fragment.toList := by
  simp only [validateFragment, reject_ok, Bool.or_eq_true, not_or, Bool.not_eq_true, Bool.not_eq_false',
    List.all_eq_true] at valid
  intro inside
  rw [valid.2 c inside] at other
  cases other

theorem validateFragment_hash (valid : validateFragment fragment = .ok ()) : '#' ∉ fragment.toList :=
  validateFragment_clear valid (show isIdentifierByte '#' = false by decide)

/-- What comes before the first hash, and what comes after it. -/
private theorem hash_split {left right after behind : List Char} (clear : '#' ∉ left) (plain : '#' ∉ behind)
    (same : left ++ '#' :: behind = right ++ '#' :: after) : left = right ∧ behind = after := by
  induction left generalizing right with
  | nil =>
    cases right with
    | nil => exact ⟨rfl, (List.cons.inj same).2⟩
    | cons d more =>
      have tail : behind = more ++ '#' :: after := (List.cons.inj same).2
      exact absurd (tail ▸ by simp : '#' ∈ behind) plain
  | cons d more ih =>
    cases right with
    | nil =>
      have first : d = '#' := (List.cons.inj same).1
      exact absurd (first ▸ List.mem_cons_self) clear
    | cons e others =>
      obtain ⟨rfl, tail⟩ := List.cons.inj same
      obtain ⟨rfl, rest⟩ := ih (fun inside => clear (List.mem_cons_of_mem _ inside)) tail
      exact ⟨rfl, rest⟩

theorem kid_injective {after : String} (clear : '#' ∉ did.toList) (plain : '#' ∉ fragment.toList)
    (same : did ++ "#" ++ fragment = other ++ "#" ++ after) : did = other ∧ fragment = after := by
  have lists : did.toList ++ '#' :: fragment.toList = other.toList ++ '#' :: after.toList := by
    have chars := congrArg String.toList same
    simpa using chars
  obtain ⟨one, two⟩ := hash_split clear plain lists
  exact ⟨String.toList_inj.mp one, String.toList_inj.mp two⟩

end

section
variable {did kid canonical fragment : String}

private theorem canonicalizeKid_strip (valid : validateFragment fragment = .ok ()) :
    canonicalizeKid did ("#" ++ fragment) = .ok (did ++ "#" ++ fragment) := by
  unfold canonicalizeKid
  have stripped : strip ("#" ++ fragment) "#" = some fragment := strip_some.mpr rfl
  simp only [stripped]
  exact except_bind_ok.mpr ⟨fragment, rfl, except_bind_ok.mpr ⟨(), valid, rfl⟩⟩

/-- A fragment is its own kid in canonical form, after the DID. -/
theorem canonicalizeKid_fragment (valid : validateFragment fragment = .ok ()) :
    canonicalizeKid did fragment = .ok (did ++ "#" ++ fragment) := by
  have hash := validateFragment_hash valid
  have colon := validateFragment_clear valid (show isIdentifierByte ':' = false by decide)
  have bare : strip fragment "#" = none := strip_none (fun rest same => hash (by rw [same]; simp))
  have foreign : strip fragment (did ++ "#") = none := strip_none (fun rest same => hash (by rw [same]; simp))
  have plain : (!contains fragment ':' && !contains fragment '#') = true := by simp [contains, hash, colon]
  unfold canonicalizeKid
  simp only [bare, foreign, plain, if_true]
  exact except_bind_ok.mpr ⟨fragment, rfl, except_bind_ok.mpr ⟨(), valid, rfl⟩⟩

private theorem canonicalizeKid_full (head : did.toList.head? ≠ some '#') (valid : validateFragment fragment = .ok ()) :
    canonicalizeKid did (did ++ "#" ++ fragment) = .ok (did ++ "#" ++ fragment) := by
  by_cases empty : did = ""
  · subst empty
    exact canonicalizeKid_strip valid
  have bare : strip (did ++ "#" ++ fragment) "#" = none := by
    refine strip_none (fun rest same => head ?_)
    have chars := congrArg (·.toList.head?) same
    have first : did.toList ≠ [] := fun none => empty (String.toList_eq_nil_iff.mp none)
    simpa [List.head?_append_of_ne_nil _ first] using chars
  have stripped : strip (did ++ "#" ++ fragment) (did ++ "#") = some fragment := strip_some.mpr rfl
  unfold canonicalizeKid
  simp only [bare, stripped]
  exact except_bind_ok.mpr ⟨fragment, rfl, except_bind_ok.mpr ⟨(), valid, rfl⟩⟩

/-- The kids that a canonical kid is made of: its fragment in one of three forms. -/
theorem canonicalizeKid_ok (made : canonicalizeKid did kid = .ok canonical) :
    ∃ fragment, validateFragment fragment = .ok () ∧ canonical = did ++ "#" ++ fragment ∧
      (kid = fragment ∨ kid = "#" ++ fragment ∨ kid = did ++ "#" ++ fragment) := by
  unfold canonicalizeKid at made
  cases bare : strip kid "#" with
  | some fragment =>
    simp only [bare, except_bind_ok, Except.ok.injEq] at made
    obtain ⟨_, rfl, ⟨⟩, valid, same⟩ := made
    exact ⟨_, valid, same.symm, .inr (.inl (strip_some.mp bare))⟩
  | none =>
    cases full : strip kid (did ++ "#") with
    | some fragment =>
      simp only [bare, full, except_bind_ok, Except.ok.injEq] at made
      obtain ⟨_, rfl, ⟨⟩, valid, same⟩ := made
      exact ⟨_, valid, same.symm, .inr (.inr (strip_some.mp full))⟩
    | none =>
      simp only [bare, full] at made
      split at made
      · simp only [except_bind_ok, Except.ok.injEq] at made
        obtain ⟨_, rfl, ⟨⟩, valid, same⟩ := made
        exact ⟨_, valid, same.symm, .inl rfl⟩
      · cases made

/-- A canonical kid stands for itself. -/
theorem canonicalizeKid_again (head : did.toList.head? ≠ some '#') (made : canonicalizeKid did kid = .ok canonical) :
    canonicalizeKid did canonical = .ok canonical := by
  obtain ⟨fragment, valid, rfl, -⟩ := canonicalizeKid_ok made
  exact canonicalizeKid_full head valid

theorem validateUniqueKids_iff {seen kids : List String} : validateUniqueKids did seen kids = .ok () ↔
    ∃ canonicals, List.Forall₂ (fun kid canonical => canonicalizeKid did kid = .ok canonical) kids canonicals ∧
      canonicals.Nodup ∧ ∀ canonical ∈ canonicals, canonical ∉ seen := by
  induction kids generalizing seen with
  | nil => exact ⟨fun _ => ⟨[], .nil, List.nodup_nil, by simp⟩, fun _ => rfl⟩
  | cons kid rest ih =>
    simp only [validateUniqueKids, except_bind_ok, reject_ok, ih]
    constructor
    · rintro ⟨canonical, made, ⟨⟩, new, canonicals, all, distinct, unseen⟩
      refine ⟨canonical :: canonicals, .cons made all, List.nodup_cons.mpr ⟨?_, distinct⟩, ?_⟩
      · exact fun again => unseen canonical again List.mem_cons_self
      · refine List.forall_mem_cons.mpr ⟨new, fun other inside before => ?_⟩
        exact unseen other inside (List.mem_cons_of_mem _ before)
    · rintro ⟨_, all, distinct, unseen⟩
      cases all with
      | cons made all =>
        rename_i canonical canonicals
        obtain ⟨new, unseen⟩ := List.forall_mem_cons.mp unseen
        obtain ⟨apart, distinct⟩ := List.nodup_cons.mp distinct
        refine ⟨canonical, made, (), new, canonicals, all, distinct, fun other inside before => ?_⟩
        rcases List.mem_cons.mp before with rfl | before
        · exact apart inside
        · exact unseen other inside before

/-- What a canonical kid is made from, that it is canonical for its own DID only, and which lists of kids are accepted. -/
theorem canonical_kids_exact (did : String) (named : did ≠ "") (clear : '#' ∉ did.toList) :
    (∀ kid canonical, canonicalizeKid did kid = .ok canonical →
      ∃ fragment, validateFragment fragment = .ok () ∧ canonical = did ++ "#" ++ fragment ∧
        canonicalizeKid did canonical = .ok canonical ∧
        (∀ other, canonicalizeKid did other = .ok canonical ↔
          other ∈ [fragment, "#" ++ fragment, did ++ "#" ++ fragment]) ∧
        ∀ foreign, foreign ≠ did → ∃ e, canonicalizeKid foreign canonical = .error e) ∧
    ∀ kids, validateUniqueKids did [] kids = .ok () ↔
      ∃ canonicals, List.Forall₂ (fun kid canonical => canonicalizeKid did kid = .ok canonical) kids canonicals ∧
        canonicals.Nodup := by
  refine ⟨fun kid canonical made => ?_, fun kids => ?_⟩
  · obtain ⟨fragment, valid, rfl, -⟩ := canonicalizeKid_ok made
    have hash := validateFragment_hash valid
    have head : did.toList.head? ≠ some '#' := fun first => clear (List.mem_of_head? first)
    refine ⟨fragment, valid, rfl, canonicalizeKid_full head valid, fun other => ?_, fun foreign apart => ?_⟩
    · simp only [List.mem_cons, List.not_mem_nil, or_false]
      constructor
      · intro same
        obtain ⟨found, valid, is, forms⟩ := canonicalizeKid_ok same
        obtain ⟨-, rfl⟩ := kid_injective clear hash is
        exact forms
      · rintro (rfl | rfl | rfl)
        · exact canonicalizeKid_fragment valid
        · exact canonicalizeKid_strip valid
        · exact canonicalizeKid_full head valid
    · cases result : canonicalizeKid foreign (did ++ "#" ++ fragment) with
      | error e => exact ⟨e, rfl⟩
      | ok canonical =>
        obtain ⟨found, plain, -, same | same | same⟩ := canonicalizeKid_ok result
        · exact absurd (by rw [← same]; simp) (validateFragment_hash plain)
        · have same : did ++ "#" ++ fragment = "" ++ "#" ++ found := same
          exact absurd (kid_injective clear hash same).1 named
        · exact absurd (kid_injective clear hash same).1.symm apart
  · rw [validateUniqueKids_iff]
    simp

/-- Two kids of `did:web:a.b` in two forms are told apart, and a kid of `did:web:a.bc` is none of its own. -/
theorem canonical_kids_exact_web :
    validateUniqueKids "did:web:a.b" [] ["k", "#n"] = .ok () ∧
      (∃ e, canonicalizeKid "did:web:a.bc" "did:web:a.b#k" = .error e) := by
  obtain ⟨kids, lists⟩ := canonical_kids_exact "did:web:a.b" (by decide) (by decide)
  obtain ⟨_, -, -, -, -, foreign⟩ := kids "k" "did:web:a.b#k" (by decide)
  refine ⟨(lists _).mpr ⟨["did:web:a.b#k", "did:web:a.b#n"], ?_, by decide⟩, foreign _ (by decide)⟩
  exact .cons (by decide) (.cons (by decide) .nil)

end
end AnpIdentity
