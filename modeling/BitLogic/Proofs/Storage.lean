import BitLogic.Files
import BitLogic.Proofs.Basics

/-!
# What Is Written Is Read Back

A file that has been written is read with the content it was given, under the same path.

Reading goes along the parts of a path and asks at each of them whether there is a file of
that name and whether there are files below it. Writing adds a file or replaces one, so it may
change these answers on the way. It does not, for two reasons. No name is lost. And the name
that was written is met only at the end of the path: a part before the end is a directory and
no file, while at the end there was a file or else no directory (`meets_of_locateFrom`).

## Main definitions

* `Files.Place.name?`: The name under which something can be written at a place.
* `Files.Gets`: A name has got a content, and nothing else has changed.
* `Files.IsNamePart`: A part of a path that is a name.
* `Files.Goes`: What the next part of a path does on the way to a name.

## Theorems

* `Files.hasDirectory_eraseP`: A directory stays, or it was that of the file that was
  taken out.
* `Files.gets_write`: What writing does.
* `Files.locateFrom_name`: Where a path leads that begins with a name.
* `Files.goes_of_locateFrom`: What the next part of a path can do.
* `Files.meets_of_locateFrom`: What there is where a path leads.
* `Files.locateFrom_gets`: A path leads to the name that was written.
* `Files.read_write`: What is written is read back.
-/

namespace BitLogic

namespace Files

/-- The name under which something can be written. -/
def Place.name? : Place → Option Text
  | .file name _ => some name
  | .free name => some name
  | _ => none

/-- The name has got the content. Other names have kept theirs, and no directory is gone. -/
structure Gets (fs fs' : Files) (name content : Text) : Prop where
  self : fs'.lookup name = some content
  other : ∀ n, n ≠ name → fs'.lookup n = fs.lookup n
  below : ∀ n, fs.hasDirectory n = true → fs'.hasDirectory n = true

/-- A file below a directory stays there, or it was the one that was taken out. -/
theorem hasDirectory_eraseP (fs : Files) (name n : Text) (h : fs.hasDirectory n = true) :
    (Text.dropPrefix? (n ++ [separator]) name).isSome = true ∨
      hasDirectory (fs.eraseP (·.1 == name)) n = true := by
  rw [hasDirectory, List.any_eq_true] at h
  rcases h with ⟨⟨m, content⟩, hmem, hbelow⟩
  by_cases hname : m = name
  · exact Or.inl (hname ▸ hbelow)
  · rw [hasDirectory, List.any_eq_true]
    have hkeep : (m, content) ∈ fs.eraseP (·.1 == name) :=
      (List.mem_eraseP_of_neg (by simpa using hname)).mpr hmem
    exact Or.inr ⟨(m, content), hkeep, hbelow⟩

/-- Writing gives the content to the name that the path leads to, and leaves everything
    else. -/
theorem gets_write (fs fs' : Files) (path content : Text) (h : fs.write path content = .ok fs') :
    ∃ name, (fs.locate path).name? = some name ∧ Gets fs fs' name content := by
  unfold write at h
  split at h
  · next name old hloc =>
    rw [hloc]
    rw [← Except.ok.inj h]
    refine ⟨name, rfl, List.lookup_cons_self, fun n hn => ?_, fun n hbelow => ?_⟩
    · rw [List.lookup_cons_of_ne _ _ _ _ hn, List.lookup_eraseP fs n name hn]
    · -- What was taken out has been put back under the same name.
      rw [hasDirectory, List.any_cons, Bool.or_eq_true]
      exact hasDirectory_eraseP fs name n hbelow
  · next name hloc =>
    rw [hloc]
    rw [← Except.ok.inj h]
    refine ⟨name, rfl, List.lookup_cons_self, fun n hn => List.lookup_cons_of_ne _ _ _ _ hn, ?_⟩
    intro n hbelow
    rw [hasDirectory, List.any_cons, Bool.or_eq_true]
    exact Or.inr hbelow
  · simp only [reduceCtorEq] at h
  · simp only [reduceCtorEq] at h

/-- The part of a path is a name, and not too long for one. -/
structure IsNamePart (part : Text) : Prop where
  named : ¬ (part = [] ∨ part = [46])
  notUp : part ≠ [46, 46]
  short : ¬ 255 < part.length

theorem locateFrom_name (fs : Files) (dir : List Text) (part : Text) (rest : List Text)
    (h : IsNamePart part) : locateFrom fs dir (part :: rest) =
      match fs.lookup (joinParts (part :: dir).reverse) with
      | some content =>
        if rest.isEmpty then .file (joinParts (part :: dir).reverse) content
        else .nowhere .notDirectory
      | none =>
        if fs.hasDirectory (joinParts (part :: dir).reverse) then locateFrom fs (part :: dir) rest
        else match rest with
          | [] => .free (joinParts (part :: dir).reverse)
          | _ => .nowhere .notFound := by
  rw [locateFrom]
  exact (if_neg h.named).trans ((if_neg h.notUp).trans (if_neg h.short))

/-- What the next part of a path does on the way to a name: it is passed over, or it leads
    down into a directory that is no file, or it is the last. Then there is a file of that name or
    no directory. -/
inductive Goes (fs : Files) (dir : List Text) (part : Text) (rest : List Text) (name : Text) :
    Prop
  | past (dir' : List Text)
      (hsame : ∀ gs, locateFrom gs dir (part :: rest) = locateFrom gs dir' rest)
      (h : (locateFrom fs dir' rest).name? = some name)
  | down (hpart : IsNamePart part) (hnone : fs.lookup (joinParts (part :: dir).reverse) = none)
      (hbelow : fs.hasDirectory (joinParts (part :: dir).reverse) = true)
      (h : (locateFrom fs (part :: dir) rest).name? = some name)
  | last (hpart : IsNamePart part) (hrest : rest = [])
      (hname : joinParts (part :: dir).reverse = name)
      (hend : (∃ content, fs.lookup name = some content) ∨ fs.hasDirectory name = false)

/-- The next part of a path that leads to a name does one of these things. -/
theorem goes_of_locateFrom (fs : Files) (dir : List Text) (part : Text) (rest : List Text)
    (name : Text) (h : (locateFrom fs dir (part :: rest)).name? = some name) :
    Goes fs dir part rest name := by
  by_cases hskip : part = [] ∨ part = [46]
  · have hsame : ∀ gs, locateFrom gs dir (part :: rest) = locateFrom gs dir rest :=
      fun gs => by rw [locateFrom, if_pos hskip]
    exact .past dir hsame (hsame fs ▸ h)
  by_cases hup : part = [46, 46]
  · have hsame : ∀ gs, locateFrom gs dir (part :: rest) = locateFrom gs dir.tail rest :=
      fun gs => by rw [locateFrom, if_neg hskip, if_pos hup]
    exact .past dir.tail hsame (hsame fs ▸ h)
  by_cases hlong : 255 < part.length
  · rw [locateFrom, if_neg hskip, if_neg hup, if_pos hlong] at h
    simp only [Place.name?, reduceCtorEq] at h
  have hpart : IsNamePart part := ⟨hskip, hup, hlong⟩
  rw [locateFrom_name fs dir part rest hpart] at h
  -- A name is a file or not, and only at the end of the path may it be one.
  cases hlookup : fs.lookup (joinParts (part :: dir).reverse) with
  | some content =>
      rw [hlookup] at h
      cases rest with
      | nil =>
          have hname : joinParts (part :: dir).reverse = name := Option.some.inj h
          exact .last hpart rfl hname (Or.inl ⟨content, hname ▸ hlookup⟩)
      | cons _ _ =>
          simp only [List.isEmpty_cons, Bool.false_eq_true, if_false, Place.name?,
            reduceCtorEq] at h
  | none =>
      rw [hlookup] at h
      simp only at h
      by_cases hbelow : fs.hasDirectory (joinParts (part :: dir).reverse) = true
      · rw [if_pos hbelow] at h
        exact .down hpart hlookup hbelow h
      · rw [if_neg hbelow] at h
        rw [Bool.not_eq_true] at hbelow
        cases rest with
        | nil =>
            have hname : joinParts (part :: dir).reverse = name := Option.some.inj h
            exact .last hpart rfl hname (Or.inr (hname ▸ hbelow))
        | cons _ _ => simp only [Place.name?, reduceCtorEq] at h

/-- Where a path leads there is a file, or there is no directory. -/
theorem meets_of_locateFrom (fs : Files) (name : Text) (parts : List Text) : ∀ dir : List Text,
    (locateFrom fs dir parts).name? = some name →
      (∃ content, fs.lookup name = some content) ∨ fs.hasDirectory name = false := by
  induction parts with
  | nil =>
      intro dir h
      simp only [locateFrom, Place.name?, reduceCtorEq] at h
  | cons part rest ih =>
      intro dir h
      cases goes_of_locateFrom fs dir part rest name h with
      | past dir' _ h => exact ih dir' h
      | down _ _ _ h => exact ih (part :: dir) h
      | last _ _ _ hend => exact hend

/-- A path leads to the name that was written, by induction on its parts. -/
theorem locateFrom_gets (fs fs' : Files) (name content : Text) (hgets : Gets fs fs' name content)
    (parts : List Text) : ∀ dir : List Text, (locateFrom fs dir parts).name? = some name →
      locateFrom fs' dir parts = .file name content := by
  induction parts with
  | nil =>
      intro dir h
      simp only [locateFrom, Place.name?, reduceCtorEq] at h
  | cons part rest ih =>
      intro dir h
      have hmeets := meets_of_locateFrom fs name (part :: rest) dir h
      cases goes_of_locateFrom fs dir part rest name h with
      | past dir' hsame h => rw [hsame, ih dir' h]
      | down hpart hnone hbelow h =>
          -- A directory that is no file is not what was written.
          have hne : joinParts (part :: dir).reverse ≠ name := by
            intro heq
            rw [heq] at hnone hbelow
            rcases hmeets with ⟨old, hold⟩ | hfree
            · rw [hold] at hnone
              simp only [reduceCtorEq] at hnone
            · rw [hfree] at hbelow
              exact Bool.false_ne_true hbelow
          rw [locateFrom_name fs' dir part rest hpart, hgets.other _ hne, hnone]
          simp only
          rw [if_pos (hgets.below _ hbelow), ih (part :: dir) h]
      | last hpart hrest hname _ =>
          -- Whether there was a file or not, there is one now.
          rw [locateFrom_name fs' dir part rest hpart, hname, hgets.self, hrest]
          rfl

/-- What is written is read back. -/
theorem read_write (fs fs' : Files) (path content : Text) (h : fs.write path content = .ok fs') :
    fs'.read path = .ok content := by
  rcases gets_write fs fs' path content h with ⟨name, hname, hgets⟩
  -- Only two of the branches lead to a name, and which is taken depends on the path alone.
  have hloc : fs'.locate path = .file name content := by
    unfold locate at hname ⊢
    split at hname
    · simp only [Place.name?, reduceCtorEq] at hname
    next hzero =>
    rw [if_neg hzero]
    split at hname
    · simp only [Place.name?, reduceCtorEq] at hname
    next hempty =>
    rw [if_neg hempty]
    split at hname
    · simp only [Place.name?, reduceCtorEq] at hname
    next hlong =>
    rw [if_neg hlong]
    split at hname
    · next hroot =>
      rw [if_pos hroot]
      unfold locateFromRoot at hname ⊢
      split at hname
      · rw [Place.name?, Option.some.injEq] at hname
        rw [hname, hgets.self]
      · split at hname
        · simp only [Place.name?, reduceCtorEq] at hname
        · simp only [Place.name?, reduceCtorEq] at hname
    · next hroot =>
      rw [if_neg hroot]
      exact locateFrom_gets fs fs' name content hgets _ [] hname
  rw [read, hloc]

end Files

end BitLogic
