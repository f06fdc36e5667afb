import Mathlib.Tactic
import QuillImage.Backend
import QuillImage.Proofs.Image.Boot
import QuillImage.Proofs.Image.Identifier
import QuillImage.Proofs.Lowering.Faithful

/-!
# What a backend writes

The backend lowers a program, makes the image and writes it to its sink. `Backend.written`
is the file that is found at the path that the backend gives back. Lowering a well-formed
program returns, and the image is made of the name of the module and of the options alone.

Main statement: what is written for programs with the same module name, with options that
differ at most in the identifier of the module, is the same before and after the identifier;
or nothing is written for either of them (`Backend.written_around_guid`).
-/

namespace QuillImage

open Syntax Image

/-- Lowering a well-formed program returns. -/
theorem Lowering.exists_run_lowerProgram {p : Program} (hp : p.WellFormed) (s : Lowering) :
    ∃ result s', (lowerProgram p).run s = .ok (result, s') := by
  have hcalls : ∀ call ∈ [Call.program], call.InProgram p := by simp [Call.InProgram]
  obtain ⟨_, _, _, hruns, -⟩ := exists_run_calls hp hcalls s
  obtain ⟨_, _, hrun, -⟩ := run_bind_eq_ok.1 hruns
  obtain ⟨result, s', hprogram, -⟩ := run_bind_eq_ok.1 hrun
  exact ⟨result, s', hprogram⟩

namespace Backend

/-! ## Images of programs -/

/-- The executable of a program. -/
def executable (o : Options) (p : Program) : Executable where
  sourcePath := p.sourcePath
  moduleName := p.moduleName
  options := o

/-- The identifier that the module of an image gets. -/
def identifier (o : Options) (fresh : Guid) : Guid := o.moduleGuid.getD fresh

/-- The image of a program is that of its executable. -/
theorem image_eq (o : Options) (p : Program) (fresh : Guid) :
    image o p fresh = (executable o p).imageWith (identifier o fresh) := by
  simp only [image, Executable.assemble, Executable.imageWith, Executable.bytes, executable,
    identifier, bind_assoc, pure_bind]

/-- A path that the backend gives back is the output path of the executable. -/
theorem eq_outputPath_of_generate {σ : Type} {o : Options} {p : Program} {fresh : Guid}
    {sink : Sink σ} {s : σ} {path : String}
    (h : ((cli o).generate p fresh sink s).path = .ok (some path)) :
    path = (executable o p).outputPath := by
  rw [generate] at h
  split at h
  · cases h
  · dsimp only at h
    split at h
    · cases h
    · split at h
      · cases h
      · cases h
        rfl

/-- The file that the backend writes for a program, as it is found at the path that the
backend gives back. -/
def written (o : Options) (p : Program) (fresh : Guid) : Except BackendError (Option Bytes) :=
  let outcome := (cli o).generate p fresh Outputs.sink {}
  outcome.path.map fun path => path.bind outcome.sink.get?

/-- For a well-formed program, the image is written, or what stopped it is reported. -/
theorem written_eq {p : Program} (hp : p.WellFormed) (o : Options) (fresh : Guid) :
    written o p fresh =
      (((executable o p).imageWith (identifier o fresh)).map fun r => some r.1).mapError .halt := by
  obtain ⟨_, _, hrun⟩ := Lowering.exists_run_lowerProgram hp Lowering.empty
  simp only [written, generate, hrun, image_eq]
  cases (executable o p).imageWith (identifier o fresh) with
  | error cause => rfl
  | ok r => simp [Outputs.sink, Outputs.push, Outputs.get?, Except.map, Except.mapError]

/-! ## Programs with the same module name -/

/-- The options agree, apart from the identifier of the module. -/
def AgreeApartFromGuid (o₁ o₂ : Options) : Prop := { o₁ with moduleGuid := o₂.moduleGuid } = o₂

instance (o₁ o₂ : Options) : Decidable (AgreeApartFromGuid o₁ o₂) :=
  instDecidableEqOptions _ _

/-- What is filled in depends on the name of the module and on the options. -/
theorem fill_executable {o₁ o₂ : Options} {p₁ p₂ : Program}
    (hname : p₁.moduleName = p₂.moduleName) (ho : AgreeApartFromGuid o₁ o₂) (guid : Guid) :
    (executable o₂ p₂).fill guid = (executable o₁ p₁).fill guid := by
  rw [← ho, executable, executable, hname]
  rfl

theorem imageWith_executable {o₁ o₂ : Options} {p₁ p₂ : Program}
    (hname : p₁.moduleName = p₂.moduleName) (ho : AgreeApartFromGuid o₁ o₂) (guid : Guid) :
    (executable o₂ p₂).imageWith guid = (executable o₁ p₁).imageWith guid := by
  rw [Executable.imageWith, fill_executable hname ho]
  rfl

/-- What is written for two programs with the same module name, with options that agree
apart from the identifier of the module. Either both are stopped in the same way, or both get
a file, and the two files agree before and after the identifiers. If the executable fits, both
get a file, and the offset of the identifier is that of the stream of identifiers. With the same
identifier, all that is filled in and written is the same. -/
theorem written_around_guid {p₁ p₂ : Program} (hp₁ : p₁.WellFormed) (hp₂ : p₂.WellFormed)
    (hname : p₁.moduleName = p₂.moduleName) {o₁ o₂ : Options} (ho : AgreeApartFromGuid o₁ o₂)
    (fresh₁ fresh₂ : Guid) :
    ((∃ halt, written o₁ p₁ fresh₁ = .error (.halt halt) ∧
        written o₂ p₂ fresh₂ = .error (.halt halt)) ∨
      ∃ before after file₁ file₂,
        file₁ = before ++ (identifier o₁ fresh₁).stored ++ after ∧
        file₂ = before ++ (identifier o₂ fresh₂).stored ++ after ∧
        written o₁ p₁ fresh₁ = .ok (some file₁) ∧ written o₂ p₂ fresh₂ = .ok (some file₂) ∧
        ((executable o₁ p₁).Fits → streamPlace? file₁ "#GUID" = some (before.length, 16) ∧
          streamPlace? file₂ "#GUID" = some (before.length, 16))) ∧
    ((executable o₁ p₁).Fits → ∃ file₁ file₂,
      written o₁ p₁ fresh₁ = .ok (some file₁) ∧ written o₂ p₂ fresh₂ = .ok (some file₂)) ∧
    (identifier o₁ fresh₁ = identifier o₂ fresh₂ →
      (executable o₁ p₁).fill (identifier o₁ fresh₁) =
        (executable o₂ p₂).fill (identifier o₂ fresh₂) ∧
      written o₁ p₁ fresh₁ = written o₂ p₂ fresh₂) := by
  rw [written_eq hp₁, written_eq hp₂, imageWith_executable hname ho, fill_executable hname ho]
  refine ⟨?_, fun hfits => ?_, fun hguid => ?_⟩
  · obtain ⟨halt, himage₁, himage₂⟩ | ⟨before, after, events, hbefore, himage₁, himage₂⟩ :=
      (executable o₁ p₁).agreeAround_imageWith (identifier o₁ fresh₁) (identifier o₂ fresh₂)
    · rw [himage₁, himage₂]
      exact .inl ⟨halt, rfl, rfl⟩
    · rw [himage₁, himage₂]
      refine .inr ⟨before, after, _, _, rfl, rfl, rfl, rfl, fun hfits => ?_⟩
      rw [hbefore]
      exact ⟨Executable.streamPlace?_of_imageWith hfits himage₁,
        Executable.streamPlace?_of_imageWith hfits himage₂⟩
  · obtain ⟨file₁, events₁, himage₁, -⟩ :=
      Executable.exists_imageWith_streamPlace? hfits (identifier o₁ fresh₁)
    obtain ⟨file₂, events₂, himage₂, -⟩ :=
      Executable.exists_imageWith_streamPlace? hfits (identifier o₂ fresh₂)
    rw [himage₁, himage₂]
    exact ⟨file₁, file₂, rfl, rfl⟩
  · rw [hguid]
    exact ⟨rfl, rfl⟩

/-- An identifier whose bytes are all different. -/
def risingGuid : Guid := ⟨[0, 1, 2, 3, 4, 5, 6, 7, 8, 9, 10, 11, 12, 13, 14, 15], rfl⟩

/-- A program without nodes, with the identifier that the options have, and two functions that
call each other, with a fresh identifier. -/
theorem written_around_guid_evenOdd :
    (Program.empty "empty.ql" "even_odd").WellFormed ∧ Lowering.evenOdd.WellFormed ∧
      ∃ before after,
        written Executable.greeter.options (Program.empty "empty.ql" "even_odd") risingGuid =
          .ok (some (before ++ zeros 16 ++ after)) ∧
        written { Executable.greeter.options with moduleGuid := none } Lowering.evenOdd risingGuid =
          .ok (some (before ++ [3, 2, 1, 0, 5, 4, 7, 6, 8, 9, 10, 11, 12, 13, 14, 15] ++ after)) := by
  have hempty : (Program.empty "empty.ql" "even_odd").WellFormed :=
    Program.wellFormed_of_checksWith (fun _ => 0) (by decide)
  have hfits : (executable Executable.greeter.options
      (Program.empty "empty.ql" "even_odd")).Fits := by decide
  have hagree : AgreeApartFromGuid Executable.greeter.options
      { Executable.greeter.options with moduleGuid := none } := by decide
  obtain ⟨hforms, hfiles, -⟩ :=
    written_around_guid hempty Lowering.wellFormed_evenOdd rfl hagree risingGuid risingGuid
  obtain ⟨file₁, _, hfile₁, -⟩ := hfiles hfits
  obtain ⟨halt, herror, -⟩ | ⟨before, after, _, _, rfl, rfl, hwritten₁, hwritten₂, -⟩ := hforms
  · rw [hfile₁] at herror
    cases herror
  · exact ⟨hempty, Lowering.wellFormed_evenOdd, before, after, hwritten₁, hwritten₂⟩

end Backend

end QuillImage
