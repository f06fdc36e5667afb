import Mathlib.Tactic
import QuillImage.Proofs.Image.Boot
import QuillImage.Proofs.Image.Identifier

/-!
# The life cycle of an executable

An executable is asked to be assembled and asked for its file, any number of times and in any
order. `Executable.call` answers from an executable whose section and places are set together.
`Draft.call` answers from one whose six places are bound one by one, as the stages of the
assembly get to them, and each stage looks for the places that it needs.

Main statement: an executable that fits has no file before the first assembly, the first
assembly succeeds, each later one is refused and changes nothing, and the file is the same from
then on; a draft gives the same answers (`Executable.answers_lifecycle`).
-/

namespace QuillImage.Image

open Metadata Method

/-! ## Calls -/

/-- What an executable is asked for. -/
inductive Call where
  /-- To be assembled, with an identifier to be used when the options have none. -/
  | assemble (fresh : Guid)
  /-- The image file. -/
  | bytes

/-- The answer to a call. -/
inductive Answer where
  | assembled
  | file (bytes : Bytes)
  | stopped (halt : Halt)
  deriving DecidableEq

/-- One of the calls asks for assembly. -/
def Assembles (calls : List Call) : Prop := ∃ fresh, .assemble fresh ∈ calls

/-- The answers to calls in turn, and the state after them. -/
def answers {σ : Type} (call : σ → Call → Answer × σ) (s : σ) : List Call → List Answer × σ
  | [] => ([], s)
  | c :: calls =>
    let (answer, s) := call s c
    let (rest, s) := answers call s calls
    (answer :: rest, s)

section Answers

variable {σ τ : Type} {call : σ → Call → Answer × σ}

theorem answers_cons (s : σ) (c : Call) (calls : List Call) :
    answers call s (c :: calls) = ((call s c).1 :: (answers call (call s c).2 calls).1,
      (answers call (call s c).2 calls).2) := rfl

/-- Each call is answered from the state that the calls before it leave. -/
theorem getElem?_answers {calls : List Call} {i : Nat} {c : Call} (h : calls[i]? = some c)
    (s : σ) : (answers call s calls).1[i]? = some (call (answers call s (calls.take i)).2 c).1 ∧
      (answers call s (calls.take (i + 1))).2 = (call (answers call s (calls.take i)).2 c).2 := by
  induction calls generalizing s i with
  | nil => cases h
  | cons first calls ih =>
    cases i with
    | zero =>
      obtain rfl := Option.some.inj h
      exact ⟨rfl, rfl⟩
    | succ i => exact ih h (call s first).2

/-- States that are related by a map answer alike, as long as an invariant of the calls makes
each single call do so. -/
theorem answers_map {call' : τ → Call → Answer × τ} {I : σ → Prop} {f : σ → τ}
    (hkeeps : ∀ {s}, I s → ∀ c, I (call s c).2)
    (hcall : ∀ {s}, I s → ∀ c, call' (f s) c = ((call s c).1, f (call s c).2)) {s : σ} (h : I s)
    (calls : List Call) :
    answers call' (f s) calls = ((answers call s calls).1, f (answers call s calls).2) := by
  induction calls generalizing s with
  | nil => rfl
  | cons c calls ih => rw [answers_cons, answers_cons, hcall h, ih (hkeeps h c)]

end Answers

/-! ## Executables -/

namespace Executable

/-- Answers a call. A call that is stopped leaves the executable as it was. -/
def call (e : Executable) : Call → Answer × Executable
  | .assemble fresh =>
    match e.assemble fresh with
    | .ok (e', _) => (.assembled, e')
    | .error halt => (.stopped halt, e)
  | .bytes =>
    match e.bytes with
    | .ok file => (.file file, e)
    | .error halt => (.stopped halt, e)

theorem Fits.exists_fill {e : Executable} (h : e.Fits) (guid : Guid) :
    ∃ a events, e.fill guid = .ok (a, events) := by
  obtain ⟨p⟩ := nonempty_parts h guid
  exact ⟨p.assembled, p.exists_fill h⟩

section Calls

variable {e e' : Executable} {a : Assembled} {fresh : Guid} {events : List Event} {file : Bytes}

theorem call_assemble_of_ok (h : e.assemble fresh = .ok (e', events)) :
    e.call (.assemble fresh) = (.assembled, e') := by
  rw [call, h]

theorem call_bytes_of_ok (h : e.bytes = .ok file) : e.call .bytes = (.file file, e) := by
  rw [call, h]

theorem call_bytes_of_new (h : e.assembled = none) :
    e.call .bytes = (.stopped (.failure (.unsetField "OptionalHeader" "ImportTable")), e) := by
  rw [call, bytes, h]

theorem call_assemble_of_assembled (h : e.assembled = some a) (fresh : Guid) :
    e.call (.assemble fresh) = (.stopped (.failure (.alreadyAssembled e.fileName)), e) := by
  rw [call, assemble, h]

/-- No call changes an assembled executable. -/
theorem call_snd_of_assembled (h : e.assembled = some a) (c : Call) : (e.call c).2 = e := by
  cases c with
  | assemble fresh => rw [call_assemble_of_assembled h]
  | bytes =>
    rw [call]
    split <;> rfl

theorem answers_snd_of_assembled (h : e.assembled = some a) (calls : List Call) :
    (answers call e calls).2 = e := by
  induction calls with
  | nil => rfl
  | cons c calls ih => rw [answers_cons, call_snd_of_assembled h, ih]

/-- An executable that can be assembled is as it was before calls that do not assemble it, and
after all other calls it is the one that the first assembly leaves. -/
theorem answers_snd_of_new (hnew : e.assembled = none) (hassembled : e'.assembled = some a)
    (hok : ∀ fresh, ∃ events, e.assemble fresh = .ok (e', events)) (calls : List Call) :
    (¬ Assembles calls → (answers call e calls).2 = e) ∧
      (Assembles calls → (answers call e calls).2 = e') := by
  induction calls with
  | nil =>
    refine ⟨fun _ => rfl, ?_⟩
    rintro ⟨_, h⟩
    exact absurd h List.not_mem_nil
  | cons c calls ih =>
    rw [answers_cons]
    cases c with
    | assemble fresh =>
      obtain ⟨events, h⟩ := hok fresh
      rw [call_assemble_of_ok h]
      exact ⟨fun hno => absurd ⟨fresh, List.mem_cons_self⟩ hno,
        fun _ => answers_snd_of_assembled hassembled calls⟩
    | bytes =>
      have hiff : Assembles (.bytes :: calls) ↔ Assembles calls := by simp [Assembles]
      rwa [call_bytes_of_new hnew, hiff]

theorem Fits.call (h : e.Fits) (c : Call) : (e.call c).2.Fits := by
  cases hassembled : e.assembled with
  | some a =>
    rw [call_snd_of_assembled hassembled]
    exact h
  | none =>
    cases c with
    | assemble fresh =>
      obtain ⟨a, events, hfill⟩ := h.exists_fill (e.options.moduleGuid.getD fresh)
      rw [call_assemble_of_ok (assemble_of_fill hassembled hfill)]
      exact h
    | bytes =>
      rw [call_bytes_of_new hassembled]
      exact h

end Calls

end Executable

/-! ## Drafts -/

/-- An executable whose places are bound one by one while its section is filled. -/
structure Draft where
  sourcePath : String
  moduleName : String
  options : Options
  text : Section := { base := textAddress }
  importDirectory : Option Directory := none
  /-- The address table. -/
  addresses : Option Directory := none
  metadata : Option Directory := none
  cliHeader : Option Directory := none
  /-- The token of the main method. -/
  mainToken : Option UInt32 := none
  /-- The address at which the system starts the image. -/
  entryPoint : Option UInt32 := none

/-- A stage of the assembly. A stage that stops leaves what was written and bound up to there. -/
abbrev Stage := EStateM Halt Draft

namespace Draft

/-- A place that has to be bound by now. -/
def need {α : Type} (record field : String) : Option α → Except Halt α
  | some place => .ok place
  | none => .error (.failure (.unsetField record field))

/-- Appends the import tables. -/
def writeImports : Stage Imports := do
  let (imports, text) ← ofExcept (← get).text.addImports
  modify fun d =>
    { d with text, importDirectory := some imports.directory, addresses := some imports.addresses }
  return imports

/-- Appends the main method and the metadata. -/
def writeMetadata (fresh : Guid) : Stage Unit := do
  let d ← get
  let manifest ← ofExcept ((Manifest.build d.options d.moduleName
    (d.options.moduleGuid.getD fresh)).mapError Halt.failure)
  set { d with
    text := d.text.align 4
    mainToken := some (Table.methodDef.token manifest.main) }
  let mainRva ← ofExcept (← get).text.address
  let main ← ofExcept (Method.entryPoint manifest.greeting manifest.writeLine)
  modify fun d => { d with text := (d.text.append main.1).align 4 }
  let layout ← ofExcept (manifest.bindMain mainRva).layout
  let rva ← ofExcept (← get).text.address
  modify fun d => { d with
    text := d.text.append layout.bytes
    metadata := some ⟨rva, layout.size⟩ }

/-- Appends the header of the managed runtime. -/
def writeCliHeader : Stage Unit := do
  let d ← get
  let metadata ← ofExcept (need "CliHeader" "MetaData" d.metadata)
  let mainToken ← ofExcept (need "CliHeader" "EntryPointToken" d.mainToken)
  let header : CliHeader := ⟨metadata, CliHeader.onlyManaged, mainToken⟩
  modify fun d => { d with text := d.text.align 4 }
  let rva ← ofExcept (← get).text.address
  modify fun d => { d with
    text := d.text.append header.bytes
    cliHeader := some ⟨rva, CliHeader.size⟩ }

/-- Appends the jump into the runtime. -/
def writeJump (slot : UInt32) : Stage Unit := do
  modify fun d => { d with text := d.text.append (zeros jumpGap) }
  let rva ← ofExcept (← get).text.address
  modify fun d => { d with text := d.text.append (jump slot), entryPoint := some rva }

/-- Assembles a draft, once. Whether it was assembled is seen from the first of its places. -/
def assemble (fresh : Guid) : Stage Unit := do
  let d ← get
  match d.importDirectory with
  | some _ => throw (.failure (.alreadyAssembled (d.moduleName ++ d.options.outputSuffix)))
  | none =>
    let imports ← writeImports
    writeMetadata fresh
    writeCliHeader
    writeJump imports.addresses.rva
    modify fun d => { d with text := d.text.align fileAlignment.toNat }
    let _ ← ofExcept (← get).text.address

/-- The image file: headers and section. -/
def bytes (d : Draft) : Except Halt Bytes := do
  let directory ← need "OptionalHeader" "ImportTable" d.importDirectory
  let addresses ← need "OptionalHeader" "IAT" d.addresses
  let cliHeader ← need "OptionalHeader" "CLIHeader" d.cliHeader
  let entryPoint ← need "OptionalHeader" "AddressOfEntryPoint" d.entryPoint
  -- the other two places do not show in the headers
  let a : Assembled :=
    { text := d.text
      imports := ⟨directory, addresses⟩
      metadata := d.metadata.getD Directory.none
      cliHeader
      mainToken := d.mainToken.getD 0
      entryPoint }
  return (← a.headers) ++ d.text.data

/-- Answers a call. -/
def call (d : Draft) : Call → Answer × Draft
  | .assemble fresh =>
    match assemble fresh d with
    | .ok _ d' => (.assembled, d')
    | .error halt d' => (.stopped halt, d')
  | .bytes =>
    match d.bytes with
    | .ok file => (.file file, d)
    | .error halt => (.stopped halt, d)

/-! ## Stages -/

theorem bind_of_ok {α β : Type} {x : Stage α} {d d' : Draft} {a : α} (h : x d = .ok a d')
    (f : α → Stage β) : (x >>= f) d = f a d' := by
  simp only [bind, EStateM.bind, h]

theorem bind_ofExcept {α β : Type} {x : Except Halt α} {a : α} (h : x = .ok a) (f : α → Stage β) :
    ((ofExcept x : Stage α) >>= f) = f a := by
  rw [h]
  rfl

theorem bind_get {β : Type} (f : Draft → Stage β) (d : Draft) :
    ((get : Stage Draft) >>= f) d = f d d := rfl

theorem bind_set {β : Type} (d' : Draft) (f : PUnit → Stage β) (d : Draft) :
    ((set d' : Stage PUnit) >>= f) d = f ⟨⟩ d' := rfl

theorem bind_modify {β : Type} (g : Draft → Draft) (f : PUnit → Stage β) (d : Draft) :
    ((modify g : Stage PUnit) >>= f) d = f ⟨⟩ (g d) := rfl

theorem need_of_some {α : Type} {place : Option α} {value : α} (h : place = some value)
    {record field : String} : need record field place = .ok value := by
  rw [h]
  rfl

theorem writeImports_of_ok {d : Draft} {imports : Imports} {text : Section}
    (h : d.text.addImports = .ok (imports, text)) :
    writeImports d = .ok imports { d with
      text
      importDirectory := some imports.directory
      addresses := some imports.addresses } := by
  rw [writeImports, bind_get, bind_ofExcept h]
  rfl

theorem writeMetadata_of_ok {d : Draft} {fresh : Guid} {mainRva rva : UInt32} {manifest : Manifest}
    {main : Bytes} {events : List Event} {layout : Layout}
    (hmanifest : (Manifest.build d.options d.moduleName
      (d.options.moduleGuid.getD fresh)).mapError Halt.failure = .ok manifest)
    (hmain : (d.text.align 4).address = .ok mainRva)
    (hcode : Method.entryPoint manifest.greeting manifest.writeLine = .ok (main, events))
    (hlayout : (manifest.bindMain mainRva).layout = .ok layout)
    (hrva : (((d.text.align 4).append main).align 4).address = .ok rva) :
    writeMetadata fresh d = .ok () { d with
      text := (((d.text.align 4).append main).align 4).append layout.bytes
      mainToken := some (Table.methodDef.token manifest.main)
      metadata := some ⟨rva, layout.size⟩ } := by
  rw [writeMetadata, bind_get, bind_ofExcept hmanifest, bind_set, bind_get, bind_ofExcept hmain,
    bind_ofExcept hcode, bind_modify, bind_ofExcept hlayout, bind_get, bind_ofExcept hrva]
  rfl

theorem writeCliHeader_of_ok {d : Draft} {metadata : Directory} {mainToken rva : UInt32}
    (hmetadata : d.metadata = some metadata) (hmainToken : d.mainToken = some mainToken)
    (hrva : (d.text.align 4).address = .ok rva) :
    writeCliHeader d = .ok () { d with
      text := (d.text.align 4).append
        (CliHeader.bytes ⟨metadata, CliHeader.onlyManaged, mainToken⟩)
      cliHeader := some ⟨rva, CliHeader.size⟩ } := by
  rw [writeCliHeader, bind_get, bind_ofExcept (need_of_some hmetadata),
    bind_ofExcept (need_of_some hmainToken), bind_modify, bind_get, bind_ofExcept hrva]
  rfl

theorem writeJump_of_ok {d : Draft} {slot rva : UInt32}
    (hrva : (d.text.append (zeros jumpGap)).address = .ok rva) :
    writeJump slot d = .ok () { d with
      text := (d.text.append (zeros jumpGap)).append (jump slot)
      entryPoint := some rva } := by
  rw [writeJump, bind_modify, bind_get, bind_ofExcept hrva]
  rfl

/-- A new draft is assembled if each of the stages is done on what the stage before it has
left. -/
theorem assemble_of_stages {d d₁ d₂ d₃ d₄ : Draft} {fresh : Guid} {imports : Imports}
    {sectionEnd : UInt32} (hnew : d.importDirectory = none)
    (himports : writeImports d = .ok imports d₁) (hmetadata : writeMetadata fresh d₁ = .ok () d₂)
    (hcli : writeCliHeader d₂ = .ok () d₃)
    (hjump : writeJump imports.addresses.rva d₃ = .ok () d₄)
    (hend : (d₄.text.align fileAlignment.toNat).address = .ok sectionEnd) :
    assemble fresh d = .ok () { d₄ with text := d₄.text.align fileAlignment.toNat } := by
  rw [assemble, bind_get, hnew]
  dsimp only
  rw [bind_of_ok himports, bind_of_ok hmetadata, bind_of_ok hcli, bind_of_ok hjump, bind_modify,
    bind_get, bind_ofExcept hend]
  rfl

end Draft

/-! ## Drafts of executables -/

/-- The draft without a place. -/
def Executable.newDraft (e : Executable) : Draft where
  sourcePath := e.sourcePath
  moduleName := e.moduleName
  options := e.options

/-- The draft with all places of an executable. -/
def Executable.draft (e : Executable) : Draft :=
  match e.assembled with
  | none => e.newDraft
  | some a =>
    { e.newDraft with
      text := a.text
      importDirectory := some a.imports.directory
      addresses := some a.imports.addresses
      metadata := some a.metadata
      cliHeader := some a.cliHeader
      mainToken := some a.mainToken
      entryPoint := some a.entryPoint }

namespace Draft

theorem draft_of_new {e : Executable} (h : e.assembled = none) : e.draft = e.newDraft := by
  rw [Executable.draft, h]

theorem bytes_draft (e : Executable) : e.draft.bytes = e.bytes := by
  cases h : e.assembled with
  | none =>
    rw [draft_of_new h, Executable.bytes, h]
    rfl
  | some a =>
    rw [Executable.draft, Executable.bytes, h]
    rfl

theorem assemble_draft_of_assembled {e : Executable} {a : Assembled} (h : e.assembled = some a)
    (fresh : Guid) : assemble fresh e.draft =
      .error (.failure (.alreadyAssembled e.fileName)) e.draft := by
  rw [Executable.draft, h]
  rfl

/-- The stages of the assembly bind all places of an executable whose section is filled. -/
theorem assemble_draft_of_fill {e : Executable} (hnew : e.assembled = none)
    {fresh : Guid} {a : Assembled} {events : List Event}
    (hfill : e.fill (e.options.moduleGuid.getD fresh) = .ok (a, events)) :
    assemble fresh e.draft = .ok () { e with assembled := some a : Executable }.draft := by
  obtain ⟨⟨imports, s⟩, himports, hfill⟩ := exists_of_bind_eq_ok hfill
  obtain ⟨manifest, hmanifest, hfill⟩ := exists_of_bind_eq_ok hfill
  obtain ⟨mainRva, hmain, hfill⟩ := exists_of_bind_eq_ok hfill
  obtain ⟨⟨main, mainEvents⟩, hcode, hfill⟩ := exists_of_bind_eq_ok hfill
  obtain ⟨layout, hlayout, hfill⟩ := exists_of_bind_eq_ok hfill
  obtain ⟨metadataRva, hmetadata, hfill⟩ := exists_of_bind_eq_ok hfill
  obtain ⟨cliRva, hcli, hfill⟩ := exists_of_bind_eq_ok hfill
  obtain ⟨entryPoint, hentry, hfill⟩ := exists_of_bind_eq_ok hfill
  obtain ⟨sectionEnd, hend, hfill⟩ := exists_of_bind_eq_ok hfill
  obtain ⟨rfl, -⟩ := Prod.mk.inj (Except.ok.inj hfill)
  rw [draft_of_new hnew]
  have hstages := assemble_of_stages rfl (writeImports_of_ok (d := e.newDraft) himports)
    (writeMetadata_of_ok hmanifest hmain hcode hlayout hmetadata)
    (writeCliHeader_of_ok rfl rfl hcli) (writeJump_of_ok hentry) hend
  exact hstages

/-- A draft with all places of an executable that fits answers as the executable does. -/
theorem call_draft {e : Executable} (h : e.Fits) (c : Call) :
    e.draft.call c = ((e.call c).1, (e.call c).2.draft) := by
  cases c with
  | assemble fresh =>
    cases hassembled : e.assembled with
    | none =>
      obtain ⟨a, events, hfill⟩ := h.exists_fill (e.options.moduleGuid.getD fresh)
      rw [call, assemble_draft_of_fill hassembled hfill,
        Executable.call_assemble_of_ok (Executable.assemble_of_fill hassembled hfill)]
    | some a =>
      rw [call, assemble_draft_of_assembled hassembled,
        Executable.call_assemble_of_assembled hassembled]
  | bytes =>
    rw [call, bytes_draft, Executable.call]
    split <;> rfl

end Draft

/-! ## Life cycles -/

namespace Executable

/-- The first assembly of an executable that fits does not fail. If the executable has an
identifier of its own, then in every sequence of calls each call for the file before the first
assembly is stopped, the first assembly succeeds, each later one is refused with the name of the
file and changes nothing, and each call for the file after the first assembly is answered with
the same bytes. A draft gives the same answers, and between calls either none or all of its
places are bound. -/
theorem answers_lifecycle {e : Executable} {guid : Guid} (hnew : e.assembled = none)
    (hguid : e.options.moduleGuid = some guid) (hfits : e.Fits) :
    (∀ fresh failure, e.assemble fresh ≠ .error (.failure failure)) ∧
    ∃ a events file, e.fill guid = .ok (a, events) ∧
      { e with assembled := some a }.bytes = .ok file ∧ ∀ calls : List Call,
        (∀ i : Nat, calls[i]? = some .bytes → ¬ Assembles (calls.take i) →
          (answers call e calls).1[i]? =
            some (.stopped (.failure (.unsetField "OptionalHeader" "ImportTable")))) ∧
        (∀ (i : Nat) fresh, calls[i]? = some (.assemble fresh) → ¬ Assembles (calls.take i) →
          (answers call e calls).1[i]? = some .assembled ∧
            (answers call e (calls.take (i + 1))).2 = { e with assembled := some a }) ∧
        (∀ (i : Nat) fresh, calls[i]? = some (.assemble fresh) → Assembles (calls.take i) →
          (answers call e calls).1[i]? = some (.stopped (.failure (.alreadyAssembled
            (e.moduleName ++ e.options.outputSuffix)))) ∧
            (answers call e (calls.take (i + 1))).2 = (answers call e (calls.take i)).2) ∧
        (∀ i : Nat, calls[i]? = some .bytes → Assembles (calls.take i) →
          (answers call e calls).1[i]? = some (.file file)) ∧
        answers Draft.call e.newDraft calls =
          ((answers call e calls).1, (answers call e calls).2.draft) := by
  obtain ⟨p⟩ := nonempty_parts hfits guid
  obtain ⟨events, hfill⟩ := p.exists_fill hfits
  have hbytes := p.bytes_executable hfits
  have hok (fresh : Guid) : e.assemble fresh = .ok (p.executable, events) := by
    apply assemble_of_fill hnew
    rw [hguid]
    exact hfill
  constructor
  · intro fresh failure hfailure
    rw [hok fresh] at hfailure
    cases hfailure
  refine ⟨p.assembled, events, p.headers ++ p.data, hfill, hbytes, ?_⟩
  intro calls
  have hstate := answers_snd_of_new hnew rfl fun fresh => ⟨events, hok fresh⟩
  refine ⟨?_, ?_, ?_, ?_, ?_⟩
  · intro i hi hno
    rw [(getElem?_answers hi e).1, (hstate _).1 hno, call_bytes_of_new hnew]
  · intro i fresh hi hno
    rw [(getElem?_answers hi e).1, (getElem?_answers hi e).2, (hstate _).1 hno,
      call_assemble_of_ok (hok fresh)]
    exact ⟨rfl, rfl⟩
  · intro i fresh hi hyes
    rw [(getElem?_answers hi e).1, (getElem?_answers hi e).2, (hstate _).2 hyes,
      call_assemble_of_assembled rfl]
    exact ⟨rfl, rfl⟩
  · intro i hi hyes
    rw [(getElem?_answers hi e).1, (hstate _).2 hyes, call_bytes_of_ok hbytes]
  · rw [← Draft.draft_of_new hnew]
    exact answers_map (fun h c => h.call c) Draft.call_draft hfits calls

/-- Calls for the file before and after each of two assemblies. -/
def greeterCalls : List Call := [.bytes, .assemble Guid.nil, .bytes, .assemble Guid.nil, .bytes]

theorem answers_lifecycle_greeter :
    greeter.assembled = none ∧ greeter.options.moduleGuid = some Guid.nil ∧ greeter.Fits ∧
      ∃ (file : Bytes) (replies : List Answer) (e : Executable),
        answers call greeter greeterCalls = (replies, e) ∧
        replies[0]? =
          some (Answer.stopped (.failure (.unsetField "OptionalHeader" "ImportTable"))) ∧
        replies[1]? = some Answer.assembled ∧ replies[2]? = some (Answer.file file) ∧
        replies[3]? = some (Answer.stopped (.failure (.alreadyAssembled "grüße.dll"))) ∧
        replies[4]? = some (Answer.file file) := by
  have hfits : greeter.Fits := by decide
  have hname : greeter.moduleName ++ greeter.options.outputSuffix = "grüße.dll" := by decide
  have hno : ¬ Assembles [.bytes] := by simp [Assembles]
  have hyes (calls : List Call) : Assembles (.bytes :: .assemble Guid.nil :: calls) :=
    ⟨Guid.nil, by simp⟩
  obtain ⟨-, a, events, file, -, -, hcalls⟩ := answers_lifecycle (e := greeter) rfl rfl hfits
  obtain ⟨hunset, hfirst, hlater, hfile, -⟩ := hcalls greeterCalls
  rw [hname] at hlater
  exact ⟨rfl, rfl, hfits, file, _, _, Prod.mk.eta.symm, hunset 0 rfl (by simp [Assembles]),
    (hfirst 1 _ rfl hno).1, hfile 2 rfl (hyes []), (hlater 3 _ rfl (hyes _)).1,
    hfile 4 rfl (hyes _)⟩

end Executable

end QuillImage.Image
