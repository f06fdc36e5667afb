import Mathlib.Tactic
import QuillImage.Proofs.Image.Container

/-!
# What is reported of a complete section

The last event of an assembly is about the section: its size, and an address that is reported
as the entry point. The headers of the image file hold the size of the code and the address of
the entry point, so that the event can be compared with the file (`CompletesAs`).

Main statement: the size is that of the headers, and the address is the end of the section,
behind the entry point of the headers (`Executable.exists_completedSection_assemble`). So the
event never agrees with the file.
-/

namespace QuillImage.Image

/-- The last event reports the size of the code and the entry point that the headers hold. -/
def CompletesAs (events : List Event) (fields : SystemFields) : Prop :=
  ∃ image, events.getLast? =
    some (.completedSection image fields.codeSize.toNat fields.entryPoint.toNat)

namespace Executable

/-- The last event of a filled section has its size and the address behind it. -/
theorem exists_completedSection_of_fill {e : Executable} {guid : Guid} {a : Assembled}
    {events : List Event} (hfill : e.fill guid = .ok (a, events)) :
    ∃ stop, events.getLast? = some (.completedSection e.fileName a.text.offset stop.toNat) ∧
      a.text.address = .ok stop := by
  obtain ⟨⟨imports, s⟩, -, hfill⟩ := exists_of_bind_eq_ok hfill
  obtain ⟨manifest, -, hfill⟩ := exists_of_bind_eq_ok hfill
  obtain ⟨mainRva, -, hfill⟩ := exists_of_bind_eq_ok hfill
  obtain ⟨⟨main, mainEvents⟩, -, hfill⟩ := exists_of_bind_eq_ok hfill
  obtain ⟨layout, -, hfill⟩ := exists_of_bind_eq_ok hfill
  obtain ⟨metadataRva, -, hfill⟩ := exists_of_bind_eq_ok hfill
  obtain ⟨cliRva, -, hfill⟩ := exists_of_bind_eq_ok hfill
  obtain ⟨entryPoint, -, hfill⟩ := exists_of_bind_eq_ok hfill
  obtain ⟨stop, hstop, hfill⟩ := exists_of_bind_eq_ok hfill
  obtain ⟨rfl, rfl⟩ := Prod.mk.inj (Except.ok.inj hfill)
  refine ⟨stop, ?_, hstop⟩
  rw [List.getLast?_append]
  rfl

/-- Every executable that fits is assembled. The last event of its assembly has the size of the
section and the address behind it. The headers of its file have the same size, and the address
of the jump. -/
theorem exists_completedSection_assemble_eq {e : Executable} (hnew : e.assembled = none)
    (hfits : e.Fits) (fresh : Guid) :
    ∃ assembled events file m,
      e.assemble fresh = .ok (assembled, events) ∧ assembled.bytes = .ok file ∧
      ImageMap.read? file = some m ∧
      events.getLast? =
        some (.completedSection e.fileName e.sectionSize (0x2000 + e.sectionSize)) ∧
      m.fields.codeSize.toNat = e.sectionSize ∧
      m.fields.entryPoint.toNat = 0x2000 + (0x60 + e.metadataSize + 72 + jumpGap) := by
  obtain ⟨p⟩ := nonempty_parts hfits (e.options.moduleGuid.getD fresh)
  obtain ⟨events, hfill⟩ := p.exists_fill hfits
  obtain ⟨stop, hlast, hstop⟩ := exists_completedSection_of_fill hfill
  have hend := hfits.sectionSize_lt
  have hoffset : p.assembled.text.offset = e.sectionSize := p.length_data
  have hstop : stop.toNat = 0x2000 + e.sectionSize := by
    cases hstop.symm.trans (Section.address_text p.length_data hend)
    exact UInt32.toNat_ofNat_of_lt hend
  rw [hoffset, hstop] at hlast
  exact ⟨p.executable, events, _, p.map, assemble_of_fill hnew hfill, p.bytes_executable hfits,
    p.read?_file hfits, hlast, p.toNat_dataSize hfits, p.toNat_entryPoint hfits⟩

/-- Every executable that fits is assembled. The last event of its assembly has the size of the
code that the headers of the file hold. Its address is the end of the section, which is behind
the jump at the entry point of the headers, by less than the file alignment. -/
theorem exists_completedSection_assemble {e : Executable} (hnew : e.assembled = none)
    (hfits : e.Fits) (fresh : Guid) :
    ∃ assembled events file m address,
      e.assemble fresh = .ok (assembled, events) ∧ assembled.bytes = .ok file ∧
      ImageMap.read? file = some m ∧
      events.getLast? = some (.completedSection e.fileName m.fields.codeSize.toNat address) ∧
      address = 0x2000 + m.fields.codeSize.toNat ∧
      m.fields.entryPoint.toNat + 6 ≤ address ∧
      address < m.fields.entryPoint.toNat + 6 + 0x200 ∧ ¬ CompletesAs events m.fields := by
  obtain ⟨assembled, events, file, m, hassemble, hbytes, hread, hlast, hsize, hentry⟩ :=
    exists_completedSection_assemble_eq hnew hfits fresh
  have hle := e.le_sectionSize
  have hlt : e.sectionSize < 0x60 + e.metadataSize + 72 + jumpGap + 6 + 0x200 :=
    alignUp_lt_add (by decide) _
  rw [← hsize] at hlast
  refine ⟨assembled, events, file, m, _, hassemble, hbytes, hread, hlast, rfl, by omega, by omega,
    ?_⟩
  rintro ⟨image, hcompletes⟩
  rw [hlast] at hcompletes
  injection hcompletes with hevent
  injection hevent with _ _ hpoint
  omega

theorem exists_completedSection_greeter :
    greeter.assembled = none ∧ greeter.Fits ∧
      ∃ assembled events file m address,
        greeter.assemble Guid.nil = .ok (assembled, events) ∧ assembled.bytes = .ok file ∧
        ImageMap.read? file = some m ∧
        events.getLast? =
          some (.completedSection greeter.fileName m.fields.codeSize.toNat address) ∧
        address = 0x2000 + m.fields.codeSize.toNat ∧
        m.fields.entryPoint.toNat + 6 ≤ address ∧
        address < m.fields.entryPoint.toNat + 6 + 0x200 ∧ ¬ CompletesAs events m.fields := by
  have hfits : greeter.Fits := by decide
  exact ⟨rfl, hfits, exists_completedSection_assemble rfl hfits Guid.nil⟩

/-- The sample is reported with the entry point 0x2400, and its headers have 0x22A4. -/
theorem not_completesAs_greeter :
    ∃ assembled events file m,
      greeter.assemble Guid.nil = .ok (assembled, events) ∧ assembled.bytes = .ok file ∧
      ImageMap.read? file = some m ∧
      events.getLast? = some (.completedSection "grüße.dll" 0x400 0x2400) ∧
      m.fields.codeSize = 0x400 ∧ m.fields.entryPoint = 0x22A4 ∧
      ¬ CompletesAs events m.fields := by
  have hfits : greeter.Fits := by decide
  obtain ⟨assembled, events, file, m, hassemble, hbytes, hread, hlast, hsize, hentry⟩ :=
    exists_completedSection_assemble_eq (e := greeter) rfl hfits Guid.nil
  have hname : greeter.fileName = "grüße.dll" := by decide
  have hsection : greeter.sectionSize = 0x400 := by decide
  have hmetadata : greeter.metadataSize = 444 := by decide
  rw [hname, hsection] at hlast
  rw [hsection] at hsize
  rw [hmetadata] at hentry
  have hentry : m.fields.entryPoint = 0x22A4 := UInt32.toNat.inj hentry
  refine ⟨assembled, events, file, m, hassemble, hbytes, hread, hlast, UInt32.toNat.inj hsize,
    hentry, ?_⟩
  rintro ⟨image, hcompletes⟩
  rw [hlast, hentry] at hcompletes
  injection hcompletes with hevent
  injection hevent with _ _ hpoint
  exact absurd hpoint (by decide)

end Executable

end QuillImage.Image
