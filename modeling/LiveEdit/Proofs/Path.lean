/-
  LiveEdit.Proofs.Path — paths that are mapped onto a project once more.

  A mapped path stays as it is when it counts as absolute, which it always does below the few roots that are known
  (`settles_below_root`). In every other project some path is mapped a second time: no host of a dev server is found in
  front of two line feeds (`withoutServer_feeds`), so that of two paths which end in them one comes back with the
  project in front (`eq_of_clean_below`). The projects in which no path is mapped twice are those below a known root
  (`mapped_once_iff`).
-/

import Mathlib.Data.List.DropRight
import LiveEdit.Locator
import LiveEdit.Proofs.Text.Passage
import LiveEdit.Proofs.Text.Strip

namespace LiveEdit.Path

/-! ## Mapped paths -/

/-- The directory of a project, with one slash at its end. -/
def folder (project : Text) : Text := Text.dropEndWhile (· = '/') project ++ ['/']

variable {root path : Text}

theorem resolve_of_isAbsolute (h : isAbsolute path = true) (project : Option Text) : resolve project path = .ok path :=
  if_pos h

theorem resolve_of_relative (h : isAbsolute path = false) :
    resolve (some ('/' :: root)) path = .ok (folder ('/' :: root) ++ clean path) := by
  rw [resolve, if_neg (by simp [h]), folder, List.append_assoc, List.singleton_append]

/-- A mapped path stays as it is iff it counts as absolute or is taken apart into the same relative path. -/
theorem resolve_mapped_iff : resolve (some ('/' :: root)) (folder ('/' :: root) ++ clean path) =
      .ok (folder ('/' :: root) ++ clean path) ↔
    isAbsolute (folder ('/' :: root) ++ clean path) = true ∨
      clean (folder ('/' :: root) ++ clean path) = clean path := by
  by_cases h : isAbsolute (folder ('/' :: root) ++ clean path) = true
  · simp [h, resolve_of_isAbsolute h]
  · rw [resolve_of_relative (Bool.eq_false_iff.mpr h), Except.ok.injEq, List.append_cancel_left_eq, or_iff_right h]

theorem settles_iff (h : isAbsolute path = false) :
    resolve (some ('/' :: root)) path >>= resolve (some ('/' :: root)) = resolve (some ('/' :: root)) path ↔
      isAbsolute (folder ('/' :: root) ++ clean path) = true ∨
        clean (folder ('/' :: root) ++ clean path) = clean path := by
  rw [resolve_of_relative h]
  exact resolve_mapped_iff

/-! ## Absolute paths -/

theorem isAbsolute_of_root {r : Text} (hr : r ∈ absoluteRoots) (h : r <+: path) : isAbsolute path = true := by
  rw [isAbsolute, Bool.or_eq_true, List.any_eq_true]
  exact .inl ⟨r, hr, List.isPrefixOf_iff_prefix.mpr h⟩

/-- Behind a slash there is no drive. -/
theorem root_of_isAbsolute (h : isAbsolute ('/' :: path) = true) : ∃ r ∈ absoluteRoots, r <+: '/' :: path := by
  rw [isAbsolute, Bool.or_eq_true, List.any_eq_true] at h
  rcases h with ⟨r, hr, h⟩ | h
  · exact ⟨r, hr, List.isPrefixOf_iff_prefix.mp h⟩
  · unfold startsWithDrive at h
    split at h
    · rename_i he
      rw [← (List.cons.inj he).1] at h
      cases h
    · cases h

/-- The known roots have slashes at their ends and nowhere else. -/
theorem root_eq {r : Text} (h : r ∈ absoluteRoots) : ∃ name, r = '/' :: name ++ ['/'] ∧ '/' ∉ name := by
  simp only [absoluteRoots, List.mem_cons, List.not_mem_nil, or_false] at h
  rcases h with rfl | rfl | rfl
  · exact ⟨"Users".toList, rfl, by decide⟩
  · exact ⟨"home".toList, rfl, by decide⟩
  · exact ⟨"var".toList, rfl, by decide⟩

/-- The directory is that of all files, or there is a name in front of its last slash. -/
theorem folder_cases (root : Text) :
    folder ('/' :: root) = ['/'] ∨ ∃ t c, c ≠ '/' ∧ folder ('/' :: root) = '/' :: (t ++ [c]) ++ ['/'] := by
  obtain ⟨kept, hkept⟩ : ∃ kept, kept = ('/' :: root).rdropWhile (· = '/') := ⟨_, rfl⟩
  have hfolder : folder ('/' :: root) = kept ++ ['/'] := by rw [hkept]; rfl
  rcases kept.eq_nil_or_concat' with rfl | ⟨front, c, rfl⟩
  · exact .inl hfolder
  · have hc : c ≠ '/' := by
      rintro rfl
      have hagain := List.rdropWhile_idempotent (fun d => decide (d = '/')) ('/' :: root)
      rw [← hkept, List.rdropWhile_concat_pos _ _ _ (by simp)] at hagain
      have hlength := (List.rdropWhile_prefix (fun d => decide (d = '/')) front).length_le
      rw [hagain, List.length_append, List.length_singleton] at hlength
      omega
    obtain ⟨rest, hrest⟩ : front ++ [c] <+: '/' :: root := hkept ▸ List.rdropWhile_prefix _ _
    cases front with
    | nil => exact absurd (List.cons.inj hrest).1 hc
    | cons d front =>
      obtain ⟨rfl, -⟩ := List.cons.inj hrest
      exact .inr ⟨front, c, hc, hfolder⟩

/-- What lies below a directory other than that of all files is absolute only if the directory is. -/
theorem isAbsolute_below {t rest : Text} {c : Char} (h : isAbsolute ('/' :: (t ++ [c]) ++ ['/'] ++ rest) = true) :
    ∃ r ∈ absoluteRoots, r <+: '/' :: (t ++ [c]) ++ ['/'] := by
  obtain ⟨r, hr, hprefix⟩ := root_of_isAbsolute h
  have hprefix : r <+: '/' :: (t ++ [c]) ++ ['/'] ++ rest := hprefix
  refine ⟨r, hr, ?_⟩
  rcases List.prefix_or_prefix_of_prefix hprefix (List.prefix_append _ rest) with h | h
  · exact h
  · -- A known root that goes on behind the directory would have a slash inside.
    obtain ⟨name, rfl, hname⟩ := root_eq hr
    rcases List.prefix_concat_iff.mp h with h | h
    · exact h ▸ List.prefix_rfl
    · have hmem := (List.cons_prefix_cons.mp h).2.subset (List.mem_append_right _ (List.mem_singleton_self '/'))
      exact absurd hmem hname

/-! ## Hosts of a dev server -/

/-- No text that ends in two line feeds has an only line. -/
theorem onlyLine?_feeds {t u : Text} (h : t <:+ u ++ ['\n', '\n']) : onlyLine? t = none := by
  rcases List.suffix_or_suffix_of_suffix h (List.suffix_append u _) with h | ⟨v, rfl⟩
  · rcases List.suffix_cons_iff.mp h with rfl | h
    · rfl
    · rcases List.suffix_cons_iff.mp h with rfl | h
      · rfl
      · rw [List.suffix_nil.mp h]
        rfl
  · have hline := (List.takeWhile_prefix (fun c => decide (c ≠ '\n')) (l := v)).length_le
    rw [onlyLine?, Text.takeWhile_append_cons (by decide)]
    refine if_neg fun hone => ?_
    simp only [Bool.and_eq_true, decide_eq_true_eq, List.length_drop, List.length_append, List.length_cons,
      List.length_nil] at hone
    omega

theorem line_of_serverPath? {t line : Text} (h : serverPath? t = some line) :
    ∃ rest, rest <:+ t ∧ onlyLine? rest = some line := by
  obtain ⟨rest, hrest, h⟩ := Option.bind_eq_some_iff.mp h
  rw [Text.afterStart?_eq_some_iff] at hrest
  simp only at h
  split at h
  · rename_i behind hbehind
    split at h
    · cases h
    · refine ⟨behind, ?_, h⟩
      have hdrop : behind <:+ rest := (List.suffix_cons '/' behind).trans (hbehind ▸ List.drop_suffix _ rest)
      exact hdrop.trans ⟨_, hrest.symm⟩
  · cases h

/-- In front of two line feeds at the end no host is found. -/
theorem withoutServer_feeds (u : Text) : withoutServer (u ++ ['\n', '\n']) = u ++ ['\n', '\n'] := by
  have hnone : Text.Passage.first? (fun _ t => (serverPath? t).map fun p => (p, ([] : Text))) none
      (u ++ ['\n', '\n']) = none := by
    refine Text.Passage.first?_eq_none_iff.mpr fun front c back hsplit => ?_
    rw [Option.map_eq_none_iff, Option.eq_none_iff_forall_ne_some]
    intro line hline
    obtain ⟨rest, hrest, hone⟩ := line_of_serverPath? hline
    rw [onlyLine?_feeds (hrest.trans ⟨front, hsplit.symm⟩)] at hone
    cases hone
  rw [withoutServer, hnone]

/-! ## Projects -/

/-- Below a directory with a name, a path that ends in two line feeds is taken apart into itself only if it is what
stands in front of a query in the directory. -/
theorem eq_of_clean_below {t v : Text} {c : Char} (hc : c ≠ '/') (hv : '?' ∉ v)
    (h : clean ('/' :: (t ++ [c]) ++ ['/'] ++ (v ++ ['\n', '\n'])) = v ++ ['\n', '\n']) :
    v ++ ['\n', '\n'] = (t.dropWhile (· = '/') ++ [c]).takeWhile (· ≠ '?') := by
  have hsplit : '/' :: (t ++ [c]) ++ ['/'] ++ (v ++ ['\n', '\n']) =
      ('/' :: (t ++ [c]) ++ '/' :: v) ++ ['\n', '\n'] := by simp
  have hdrop : (('/' :: (t ++ [c]) ++ '/' :: v) ++ ['\n', '\n']).dropWhile (· = '/') =
      t.dropWhile (· = '/') ++ [c] ++ '/' :: (v ++ ['\n', '\n']) := by
    have hcons := Text.dropWhile_append_cons (p := fun d => decide (d = '/')) (decide_eq_false hc) t
      ('/' :: (v ++ ['\n', '\n']))
    simpa using hcons
  rw [hsplit, clean, withoutServer_feeds, hdrop] at h
  by_cases hquery : '?' ∈ t.dropWhile (· = '/') ++ [c]
  · obtain ⟨front, back, hfront⟩ := List.append_of_mem hquery
    rw [hfront, List.append_assoc, List.cons_append, Text.takeWhile_append_cons (by decide)] at h
    rw [hfront, Text.takeWhile_append_cons (by decide), h]
  · -- Nothing is taken off at the end, so that the directory is still in front.
    have hall : ∀ d ∈ t.dropWhile (· = '/') ++ [c] ++ '/' :: (v ++ ['\n', '\n']), decide (d ≠ '?') = true := by
      intro d hd
      have hne : d ≠ '?' := by
        rintro rfl
        rcases List.mem_append.mp hd with hd | hd
        · exact hquery hd
        · exact hv (by simpa using hd)
      simpa using hne
    rw [List.takeWhile_eq_self_iff.mpr hall] at h
    have hlength := congrArg List.length h
    simp only [List.length_append, List.length_cons, List.length_nil] at hlength
    omega

/-- A project in which no path is mapped twice lies below a known root. -/
theorem below_root_of_settles
    (h : ∀ path ≠ [], resolve (some ('/' :: root)) path >>= resolve (some ('/' :: root)) =
      resolve (some ('/' :: root)) path) : ∃ r ∈ absoluteRoots, r <+: folder ('/' :: root) := by
  rcases folder_cases root with hall | ⟨t, c, hc, hnamed⟩
  · -- Below the directory of all files the second of two hosts is taken off only the second time.
    have hhosts := (settles_iff (by decide)).mp (h "localhost:1/localhost:2/x".toList (by decide))
    rw [hall] at hhosts
    exact absurd hhosts (by decide)
  · by_contra hno
    rw [hnamed] at hno
    have hfeeds : ∀ v : Text, '?' ∉ v → isAbsolute (v ++ ['\n', '\n']) = false →
        clean (v ++ ['\n', '\n']) = v ++ ['\n', '\n'] →
        v ++ ['\n', '\n'] = (t.dropWhile (· = '/') ++ [c]).takeWhile (· ≠ '?') := by
      intro v hv hrelative hclean
      have hsettles := (settles_iff hrelative).mp (h (v ++ ['\n', '\n']) (by simp))
      rw [hclean, hnamed] at hsettles
      exact eq_of_clean_below hc hv (hsettles.resolve_left fun habsolute => hno (isAbsolute_below habsolute))
    have hnone := hfeeds [] (by decide) (by decide) (by decide)
    have hsome := hfeeds ['a'] (by decide) (by decide) (by decide)
    exact absurd (hnone.trans hsome.symm) (by decide)

theorem settles_below_root (h : ∃ r ∈ absoluteRoots, r <+: folder ('/' :: root)) (path : Text) :
    resolve (some ('/' :: root)) path >>= resolve (some ('/' :: root)) = resolve (some ('/' :: root)) path := by
  by_cases hpath : isAbsolute path = true
  · rw [resolve_of_isAbsolute hpath]
    show resolve (some ('/' :: root)) path = .ok path
    exact resolve_of_isAbsolute hpath _
  · obtain ⟨r, hr, hroot⟩ := h
    refine (settles_iff (Bool.eq_false_iff.mpr hpath)).mpr (.inl ?_)
    exact isAbsolute_of_root hr (hroot.trans (List.prefix_append _ _))

/-! ## Files of requests -/

theorem fileOf_eq (root path : Text) :
    fileOf (some ('/' :: root)) path = if path = [] then .ok [] else resolve (some ('/' :: root)) path := by
  by_cases h : path = []
  · simp [fileOf, h]
  · simp [fileOf, h]

/-- What a path is mapped to is not empty. -/
theorem fileOf_settles_iff (root path : Text) :
    fileOf (some ('/' :: root)) path >>= fileOf (some ('/' :: root)) = fileOf (some ('/' :: root)) path ↔
      path = [] ∨ resolve (some ('/' :: root)) path >>= resolve (some ('/' :: root)) =
        resolve (some ('/' :: root)) path := by
  by_cases h : path = []
  · simp [h, fileOf_eq, bind, Except.bind]
  · have hmapped : ∃ q, resolve (some ('/' :: root)) path = .ok q ∧ q ≠ [] := by
      by_cases hpath : isAbsolute path = true
      · exact ⟨path, resolve_of_isAbsolute hpath _, h⟩
      · exact ⟨_, resolve_of_relative (Bool.eq_false_iff.mpr hpath), by simp [folder]⟩
    obtain ⟨q, hq, hne⟩ := hmapped
    rw [or_iff_right h, fileOf_eq, if_neg h, hq]
    show fileOf (some ('/' :: root)) q = .ok q ↔ resolve (some ('/' :: root)) q = .ok q
    rw [fileOf_eq, if_neg hne]

/-! ## Mapping twice -/

/-- In a project with an absolute path every path is mapped. What it is mapped to stays as it is when it is mapped again
iff it counts as absolute or is taken apart into the relative path that the first one was. No path is mapped twice, and
no file of a request is, iff the project is one of the known roots or lies below one. -/
theorem mapped_once_iff (root : Text) :
    let project := some ('/' :: root)
    (∀ path, ∃ q, resolve project path = .ok q ∧
      (resolve project q = .ok q ↔ isAbsolute q = true ∨ clean q = clean path)) ∧
    ((∀ path, resolve project path >>= resolve project = resolve project path) ↔
      ∃ r ∈ absoluteRoots, r <+: folder ('/' :: root)) ∧
    ((∀ path, fileOf project path >>= fileOf project = fileOf project path) ↔
      ∃ r ∈ absoluteRoots, r <+: folder ('/' :: root)) := by
  intro project
  refine ⟨fun path => ?_, ⟨?_, ?_⟩, ?_, ?_⟩
  · by_cases hpath : isAbsolute path = true
    · exact ⟨path, resolve_of_isAbsolute hpath _, by simp [resolve_of_isAbsolute hpath]⟩
    · exact ⟨_, resolve_of_relative (Bool.eq_false_iff.mpr hpath), resolve_mapped_iff⟩
  · exact fun h => below_root_of_settles fun path _ => h path
  · exact settles_below_root
  · exact fun h => below_root_of_settles fun path hne => ((fileOf_settles_iff root path).mp (h path)).resolve_left hne
  · exact fun h path => (fileOf_settles_iff root path).mpr (.inr (settles_below_root h path))

/-- A file of a project elsewhere is taken for a relative path, and the project is put in front of it once more. -/
theorem project_put_in_front_twice :
    let project := some "/proj".toList
    let file := "/proj/src/App.tsx".toList
    resolve project "http://localhost:5173/src/App.tsx?t=123".toList = .ok file ∧
      resolve project file = .ok "/proj/proj/src/App.tsx".toList ∧ resolve project file ≠ .ok file ∧
      ¬ ∃ r ∈ absoluteRoots, r <+: folder "/proj".toList := by
  intro project file
  have htwice : resolve project file = .ok "/proj/proj/src/App.tsx".toList := by rfl
  refine ⟨by rfl, htwice, ?_, by decide⟩
  rw [htwice, ne_eq, Except.ok.injEq]
  decide

end LiveEdit.Path
