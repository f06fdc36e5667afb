import Mathlib.Tactic
import QuillImage.Image.Executable

/-!
# Paths of images

A text is read as a head and segments in exactly one way (`split_eq_iff`), so that what is read
of a path can be found from how it is written. The parent of a path is written with the same
head and with first segments of it, the last of which is not idle (`Directory`). A directory
that is continued by a name is read as the directory and the name (`Directory.exists_split`).

Main statement: the image of a source that has a parent is in that parent, and is named for the
module, exactly if that is a name (`isName_iff_outputPath`). The file of an executable is
beside its source in the same way (`Executable.isName_fileName_iff`).
-/

namespace QuillImage.Path

/-! ## Segments -/

theorem segments_eq_splitOn (cs : List Char) : segments cs = cs.splitOn '/' := by
  induction cs with
  | nil => rfl
  | cons c cs ih =>
    obtain ⟨s, rest, hcs⟩ := List.exists_cons_of_ne_nil (List.splitOnP_ne_nil (· == '/') cs)
    have hsegments : segments cs = s :: rest := ih.trans hcs
    have hsplitOn : (c :: cs).splitOn '/' =
        if (c == '/') = true then [] :: s :: rest else (c :: s) :: rest := by
      rw [List.splitOn, List.splitOnP_cons_eq_if_modifyHead, hcs, List.modifyHead_cons]
    simp only [segments, hsegments, hsplitOn, beq_iff_eq]

theorem segments_ne_nil (cs : List Char) : segments cs ≠ [] := by
  rw [segments_eq_splitOn]
  exact List.splitOnP_ne_nil _ cs

theorem joinSegments_segments (cs : List Char) : joinSegments (segments cs) = cs := by
  rw [segments_eq_splitOn]
  exact List.intercalate_splitOn '/'

theorem segments_joinSegments {ss : List (List Char)} (hslash : ∀ s ∈ ss, '/' ∉ s)
    (hne : ss ≠ []) : segments (joinSegments ss) = ss := by
  rw [segments_eq_splitOn]
  exact List.splitOn_intercalate '/' hslash hne

theorem notMem_of_mem_segments {cs s : List Char} (h : s ∈ segments cs) : '/' ∉ s := by
  induction cs generalizing s with
  | nil =>
    rw [segments, List.mem_singleton] at h
    simp [h]
  | cons c cs ih =>
    rw [segments] at h
    split at h
    · rcases List.mem_cons.1 h with rfl | h
      · exact List.not_mem_nil
      · exact ih h
    · rename_i hc
      cases hcs : segments cs with
      | nil => exact absurd hcs (segments_ne_nil cs)
      | cons first rest =>
        rw [hcs] at h ih
        rcases List.mem_cons.1 h with rfl | h
        · simpa [Ne.symm hc] using ih List.mem_cons_self
        · exact ih (List.mem_cons_of_mem first h)

theorem joinSegments_singleton (s : List Char) : joinSegments [s] = s :=
  List.intercalate_singleton

theorem joinSegments_cons {ss : List (List Char)} (hne : ss ≠ []) (s : List Char) :
    joinSegments (s :: ss) = s ++ '/' :: joinSegments ss := by
  cases ss with
  | nil => exact absurd rfl hne
  | cons next rest => simp [joinSegments, List.intercalate_cons_cons]

theorem joinSegments_concat {ss : List (List Char)} (hne : ss ≠ []) (s : List Char) :
    joinSegments (ss ++ [s]) = joinSegments ss ++ '/' :: s := by
  induction ss with
  | nil => exact absurd rfl hne
  | cons first rest ih =>
    cases rest with
    | nil => rw [List.singleton_append, joinSegments_cons (by simp), joinSegments_singleton,
        joinSegments_singleton]
    | cons next rest =>
      rw [List.cons_append, joinSegments_cons (by simp), ih (by simp),
        joinSegments_cons (List.cons_ne_nil next rest), List.append_assoc, List.cons_append]

/-! ## Reading a path -/

/-- The segments that can follow a head. Behind no head the first one is not taken for a head,
and behind a leading `.` they start with the slash after it. -/
def Head.Leads : Head → List (List Char) → Prop
  | .none, ss => ∃ s rest, ss = s :: rest ∧ s ≠ ['.'] ∧ (s = [] → rest = [])
  | .root, ss => ss ≠ []
  | .here, ss => ss = [] ∨ ∃ rest, rest ≠ [] ∧ ss = [] :: rest

theorem split_spec (p : List Char) :
    p = (split p).1.chars ++ joinSegments (split p).2 ∧ (split p).1.Leads (split p).2 ∧
      ∀ s ∈ (split p).2, '/' ∉ s := by
  unfold split
  split
  · rename_i rest
    exact ⟨by rw [joinSegments_segments]; rfl, segments_ne_nil rest,
      fun s => notMem_of_mem_segments⟩
  · exact ⟨rfl, .inl rfl, fun s hs => absurd hs List.not_mem_nil⟩
  · rename_i rest
    exact ⟨by rw [joinSegments_segments]; rfl, .inr ⟨segments rest, segments_ne_nil rest, rfl⟩,
      fun s => notMem_of_mem_segments⟩
  -- a text without a head: a first segment that is taken for one would make it one of the others
  · rename_i hroot hdot hhere
    refine ⟨by rw [joinSegments_segments]; rfl, ?_, fun s => notMem_of_mem_segments⟩
    obtain ⟨s, rest, hsegments⟩ := List.exists_cons_of_ne_nil (segments_ne_nil p)
    have hp : p = joinSegments (s :: rest) := by rw [← hsegments, joinSegments_segments]
    refine ⟨s, rest, hsegments, ?_, ?_⟩
    · rintro rfl
      by_cases hrest : rest = []
      · exact hdot (by rw [hp, hrest, joinSegments_singleton])
      · exact hhere (joinSegments rest) (by rw [hp, joinSegments_cons hrest]; rfl)
    · rintro rfl
      by_contra hrest
      exact hroot (joinSegments rest) (by rw [hp, joinSegments_cons hrest]; rfl)

/-- A text is read as a head and segments exactly if it is written so, and the head leads the
segments. -/
theorem split_eq_iff {p : List Char} {head : Head} {ss : List (List Char)} :
    split p = (head, ss) ↔
      p = head.chars ++ joinSegments ss ∧ head.Leads ss ∧ ∀ s ∈ ss, '/' ∉ s := by
  constructor
  · intro h
    simpa only [h] using split_spec p
  · rintro ⟨rfl, hleads, hslash⟩
    cases head with
    | root => exact congrArg (Prod.mk Head.root) (segments_joinSegments hslash hleads)
    | here =>
      rcases hleads with rfl | ⟨rest, hrest, rfl⟩
      · rfl
      · have hsegments := segments_joinSegments hslash (List.cons_ne_nil [] rest)
        rw [joinSegments_cons hrest] at hsegments ⊢
        exact congrArg (Prod.mk Head.here) hsegments
    | none =>
      obtain ⟨s, rest, rfl, hdot, hempty⟩ := hleads
      have hsegments := segments_joinSegments hslash (List.cons_ne_nil s rest)
      change split (joinSegments (s :: rest)) = _
      generalize joinSegments (s :: rest) = p at hsegments ⊢
      unfold split
      split
      · injection hsegments with hs hrest
        exact absurd (hrest.trans (hempty hs.symm)) (segments_ne_nil _)
      · injection hsegments with hs
        exact absurd hs.symm hdot
      · injection hsegments with hs
        exact absurd hs.symm hdot
      · rw [hsegments]

/-! ## Directories -/

/-- The segments of a directory behind its head: the last one is not idle. -/
structure Directory (head : Head) (ss : List (List Char)) : Prop where
  leads : ss ≠ [] → head.Leads ss
  notMem_slash : ∀ s ∈ ss, '/' ∉ s
  not_isIdle : ∀ s ∈ ss.getLast?, isIdle s = false

theorem directory_nil (head : Head) : Directory head [] :=
  ⟨fun hne => absurd rfl hne, by simp, by simp⟩

theorem not_isIdle_of_dropWhile {ss : List (List Char)} {s : List Char}
    (h : (ss.dropWhile isIdle).head? = some s) : isIdle s = false := by
  have hhead := List.head?_dropWhile_not isIdle ss
  rwa [h] at hhead

/-- First segments of a path, up to one that is not idle, are those of a directory. -/
theorem directory_of_prefix {p : List Char} {head : Head} {ss front : List (List Char)}
    (hsplit : split p = (head, ss)) (hfront : front <+: ss)
    (hlast : ∀ s ∈ front.getLast?, isIdle s = false) : Directory head front := by
  obtain ⟨-, hleads, hslash⟩ := split_eq_iff.1 hsplit
  refine ⟨fun hne => ?_, fun s hs => hslash s (hfront.subset hs), hlast⟩
  obtain ⟨first, front, rfl⟩ := List.exists_cons_of_ne_nil hne
  cases head with
  | root => exact hne
  | here =>
    rcases hleads with rfl | ⟨rest, -, rfl⟩
    · exact absurd (List.prefix_nil.1 hfront) hne
    · obtain ⟨rfl, -⟩ := List.cons_prefix_cons.1 hfront
      refine .inr ⟨front, ?_, rfl⟩
      -- the slash after the leading dot is idle, so that it is not the last one
      rintro rfl
      cases hlast [] rfl
  | none =>
    obtain ⟨s, rest, rfl, hdot, hempty⟩ := hleads
    obtain ⟨rfl, htail⟩ := List.cons_prefix_cons.1 hfront
    refine ⟨first, front, rfl, hdot, fun hfirst => ?_⟩
    rw [hempty hfirst] at htail
    exact List.prefix_nil.1 htail

/-- A parent is written as a directory. -/
theorem exists_directory {p parent : List Char} (h : parentChars? p = some parent) :
    ∃ head ss, Directory head ss ∧ parent = head.chars ++ joinSegments ss := by
  obtain ⟨head, ss, hsplit⟩ : ∃ head ss, split p = (head, ss) := ⟨_, _, rfl⟩
  simp only [parentChars?, hsplit] at h
  split at h
  · rename_i last before hback
    have hsuffix : before.dropWhile isIdle <:+ ss.reverse := calc
      before.dropWhile isIdle <:+ before := List.dropWhile_suffix isIdle
      _ <:+ last :: before := List.suffix_cons last before
      _ <:+ ss.reverse := hback ▸ List.dropWhile_suffix isIdle
    refine ⟨head, _, directory_of_prefix hsplit ?_ ?_, (Option.some.inj h).symm⟩
    · rwa [← List.reverse_suffix, List.reverse_reverse]
    · intro s hs
      rw [List.getLast?_reverse] at hs
      exact not_isIdle_of_dropWhile hs
  · split at h
    · exact ⟨.none, [], directory_nil .none, (Option.some.inj h).symm⟩
    · cases h

theorem head?_ne_slash {name : List Char} (h : '/' ∉ name) : name.head? ≠ some '/' :=
  fun hhead => h (List.mem_of_mem_head? hhead)

theorem joinChars_concat {c : Char} {name : List Char} (hc : c ≠ '/') (hname : '/' ∉ name)
    (p : List Char) : joinChars (p ++ [c]) name = p ++ [c] ++ '/' :: name := by
  simp [joinChars, head?_ne_slash hname, hc]

namespace Directory

variable {head : Head} {ss : List (List Char)} (d : Directory head ss)

include d

theorem dropWhile_reverse : ss.reverse.dropWhile isIdle = ss.reverse := by
  rcases List.eq_nil_or_concat ss with rfl | ⟨front, last, rfl⟩
  · rfl
  · have hlast : isIdle last = false := d.not_isIdle last (by simp)
    simp [hlast]

/-- What a directory leads through. -/
theorem components_eq :
    components (String.ofList (head.chars ++ joinSegments ss)) =
      (head, ss.filter (!isIdle ·)) := by
  rw [components, String.toList_ofList]
  by_cases hne : ss = []
  · subst hne
    cases head <;> rfl
  · rw [split_eq_iff.2 ⟨rfl, d.leads hne, d.notMem_slash⟩]

/-- The last character of a directory that has segments is not a slash. -/
theorem exists_concat (hne : ss ≠ []) :
    ∃ front c, head.chars ++ joinSegments ss = front ++ [c] ∧ c ≠ '/' := by
  rcases List.eq_nil_or_concat ss with rfl | ⟨init, last, rfl⟩
  · exact absurd rfl hne
  have hidle : isIdle last = false := d.not_isIdle last (by simp)
  rcases List.eq_nil_or_concat last with rfl | ⟨last, c, rfl⟩
  · cases hidle
  have hslash : '/' ∉ last ++ [c] := d.notMem_slash _ (by simp)
  have hc : c ≠ '/' := by
    rintro rfl
    exact hslash (by simp)
  by_cases hinit : init = []
  · subst hinit
    exact ⟨head.chars ++ last, c, by simp [joinSegments_singleton], hc⟩
  · exact ⟨head.chars ++ (joinSegments init ++ '/' :: last), c, by
      simp [joinSegments_concat hinit], hc⟩

theorem leads_concat (hne : ss ≠ []) (s : List Char) : head.Leads (ss ++ [s]) := by
  have hleads := d.leads hne
  cases head with
  | root => exact List.append_ne_nil_of_left_ne_nil hne [s]
  | here =>
    rcases hleads with rfl | ⟨rest, -, rfl⟩
    · exact absurd rfl hne
    · exact .inr ⟨rest ++ [s], by simp, rfl⟩
  | none =>
    obtain ⟨first, rest, rfl, hdot, hempty⟩ := hleads
    refine ⟨first, rest ++ [s], rfl, hdot, ?_⟩
    -- an empty first segment would be the only one, but the last one is not idle
    rintro rfl
    rw [hempty rfl] at d
    cases d.not_isIdle [] rfl

/-- A directory that is continued by a name is read as the directory and the name. Behind a
leading `.` alone there is one more slash. -/
theorem exists_split {name : List Char} (hslash : '/' ∉ name) (hidle : isIdle name = false) :
    ∃ front, split (joinChars (head.chars ++ joinSegments ss) name) = (head, front ++ [name]) ∧
      (front = ss ∨ ss = [] ∧ front = [[]]) := by
  by_cases hne : ss = []
  · subst hne
    have hhead := head?_ne_slash hslash
    have hdot : name ≠ ['.'] := by
      rintro rfl
      cases hidle
    cases head with
    | none =>
      refine ⟨[], split_eq_iff.2 ⟨?_, ⟨name, [], rfl, hdot, fun _ => rfl⟩, by simpa⟩, .inl rfl⟩
      simp [joinChars, hhead, Head.chars, joinSegments]
    | root =>
      refine ⟨[], split_eq_iff.2 ⟨?_, by simp [Head.Leads], by simpa⟩, .inl rfl⟩
      simp [joinChars, hhead, Head.chars, joinSegments]
    | here =>
      refine ⟨[[]], split_eq_iff.2 ⟨?_, .inr ⟨[name], by simp, rfl⟩, by simpa⟩, .inr ⟨rfl, rfl⟩⟩
      simp [joinChars, hhead, Head.chars, joinSegments]
  · obtain ⟨front, c, hparent, hc⟩ := d.exists_concat hne
    refine ⟨ss, split_eq_iff.2 ⟨?_, d.leads_concat hne name, ?_⟩, .inl rfl⟩
    · rw [hparent, joinChars_concat hc hslash, ← hparent, joinSegments_concat hne,
        List.append_assoc]
    · intro s hs
      rcases List.mem_append.1 hs with hs | hs
      · exact d.notMem_slash s hs
      · rwa [List.mem_singleton.1 hs]

end Directory

/-! ## Images beside their sources -/

/-- A text that can name a file. -/
structure IsName (name : String) : Prop where
  ne_empty : name ≠ ""
  notMem_slash : '/' ∉ name.toList
  ne_here : name ≠ "."
  ne_back : name ≠ ".."

theorem countingBack_concat {s : List Char} (h : isIdle s = false) (ss : List (List Char)) :
    countingBack (ss ++ [s]) = s :: ss.reverse := by
  simp [countingBack, h]

theorem IsName.not_isIdle {name : String} (h : IsName name) : isIdle name.toList = false := by
  have hempty : name.toList ≠ [] := fun hname => h.ne_empty (String.toList_inj.1 hname)
  have hhere : name.toList ≠ ['.'] := fun hname => h.ne_here (String.toList_inj.1 hname)
  simp [isIdle, hempty, hhere]

/-- Only names are the file names of paths. -/
theorem isName_of_fileName? {p name : String} (h : fileName? p = some name) : IsName name := by
  obtain ⟨last, hlast, hname⟩ := Option.map_eq_some_iff.1 h
  obtain rfl : last = name.toList := by rw [← hname, String.toList_ofList]
  rw [fileNameChars?] at hlast
  split at hlast
  · rename_i last before hback
    split at hlast
    · cases hlast
    · rename_i hdots
      obtain rfl := Option.some.inj hlast
      have hidle : isIdle name.toList = false :=
        not_isIdle_of_dropWhile (congrArg List.head? hback)
      have hsuffix : name.toList :: before <:+ (split p.toList).2.reverse :=
        hback ▸ List.dropWhile_suffix isIdle
      have hmem : name.toList ∈ (split p.toList).2 :=
        List.mem_reverse.1 (hsuffix.subset List.mem_cons_self)
      refine ⟨?_, (split_spec p.toList).2.2 _ hmem, ?_, ?_⟩
      · rintro rfl
        cases hidle
      · rintro rfl
        cases hidle
      · rintro rfl
        exact hdots rfl
  · cases hlast

/-- What is read of a directory that is continued by a name. -/
theorem Directory.join_name {head : Head} {ss : List (List Char)} (d : Directory head ss)
    {name : String} (hname : IsName name) {dir : String}
    (hdir : dir = String.ofList (head.chars ++ joinSegments ss)) :
    parent? (join dir name) = some dir ∧ fileName? (join dir name) = some name ∧
      components (join dir name) = (head, ss.filter (!isIdle ·) ++ [name.toList]) := by
  have hidle := hname.not_isIdle
  obtain ⟨front, hsplit, hfront⟩ := d.exists_split hname.notMem_slash hidle
  have hsplit : split (join dir name).toList = (head, front ++ [name.toList]) := by
    rwa [join, hdir, String.toList_ofList, String.toList_ofList]
  have hback := countingBack_concat hidle front
  refine ⟨?_, ?_, ?_⟩
  · have hdrop : front.reverse.dropWhile isIdle = ss.reverse := by
      rcases hfront with rfl | ⟨rfl, rfl⟩
      · exact d.dropWhile_reverse
      · rfl
    simp only [parent?, parentChars?, hsplit, hback, hdrop, List.reverse_reverse,
      Option.map_some]
    rw [hdir]
  · have hdots : name.toList ≠ ['.', '.'] := fun h => hname.ne_back (String.toList_inj.1 h)
    simp only [fileName?, fileNameChars?, hsplit, hback, if_neg hdots, Option.map_some,
      String.ofList_toList]
  · have hfilter : front.filter (!isIdle ·) = ss.filter (!isIdle ·) := by
      rcases hfront with rfl | ⟨rfl, rfl⟩ <;> rfl
    simp only [components, hsplit, List.filter_append, hfilter]
    simp [hidle]

/-- The parent of a path that is continued by a text leads to the text as a file beside the
path, exactly if the text is a name. -/
theorem isName_iff_join {p parent : String} (h : parent? p = some parent) (name : String) :
    IsName name ↔ parent? (join parent name) = some parent ∧
      fileName? (join parent name) = some name ∧
      components (join parent name) =
        ((components parent).1, (components parent).2 ++ [name.toList]) := by
  obtain ⟨dir, hparent, hdir⟩ := Option.map_eq_some_iff.1 h
  obtain ⟨head, ss, d, rfl⟩ := exists_directory hparent
  constructor
  · intro hname
    rw [← hdir, d.components_eq]
    exact d.join_name hname rfl
  · rintro ⟨-, hfile, -⟩
    exact isName_of_fileName? hfile

/-- The image of a source that has a parent is beside it and named for the module, exactly if
that is a name: its parent is that of the source, its file name is the name, and it leads
through the components of the parent and then to the name. -/
theorem isName_iff_outputPath {source parent : String} (h : parent? source = some parent)
    (moduleName suffix : String) :
    IsName (moduleName ++ suffix) ↔
      parent? (outputPath source moduleName suffix) = some parent ∧
      fileName? (outputPath source moduleName suffix) = some (moduleName ++ suffix) ∧
      components (outputPath source moduleName suffix) =
        ((components parent).1, (components parent).2 ++ [(moduleName ++ suffix).toList]) := by
  rw [outputPath, h, Option.getD_some]
  exact isName_iff_join h (moduleName ++ suffix)

theorem isName_iff_outputPath_redundant :
    parent? "/srv/./lib//..///greeter.quill/." = some "/srv/./lib//.." ∧
      IsName ("grüße" ++ ".dll") ∧
      parent? (outputPath "/srv/./lib//..///greeter.quill/." "grüße" ".dll") =
        some "/srv/./lib//.." ∧
      fileName? (outputPath "/srv/./lib//..///greeter.quill/." "grüße" ".dll") =
        some ("grüße" ++ ".dll") := by
  have hparent : parent? "/srv/./lib//..///greeter.quill/." = some "/srv/./lib//.." := by decide
  have hname : IsName ("grüße" ++ ".dll") := ⟨by decide, by decide, by decide, by decide⟩
  obtain ⟨hbeside, hfile, -⟩ := (isName_iff_outputPath hparent "grüße" ".dll").1 hname
  exact ⟨hparent, hname, hbeside, hfile⟩

end QuillImage.Path

namespace QuillImage.Image.Executable

open QuillImage.Path

/-- The file of an executable whose source has a parent is beside the source, under the name of
the file, exactly if that is a name. -/
theorem isName_fileName_iff {e : Executable} {parent : String}
    (h : parent? e.sourcePath = some parent) :
    IsName e.fileName ↔ parent? e.outputPath = some parent ∧
      fileName? e.outputPath = some e.fileName ∧
      components e.outputPath =
        ((components parent).1, (components parent).2 ++ [e.fileName.toList]) := by
  rw [outputPath, Path.outputPath, h, Option.getD_some]
  exact isName_iff_join h e.fileName

end QuillImage.Image.Executable
