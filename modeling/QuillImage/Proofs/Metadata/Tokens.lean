import Mathlib.Tactic
import QuillImage.Proofs.Metadata.HandedOut

/-!
# Tokens

Instructions name rows and literals by tokens: a high byte, which is the number of a table or
`0x70` for literals, joined with a position. Tokens of all tables and of literals are given
back in any order during a run. Each kind of token has a next position, which moves on
whenever a token of the kind is given back (`exists_tokenKind_of_token?`) and never goes back
(`next_le_runAll`), so that no token is given back twice.

Main statement: rows are counted from one in each table, and as long as positions fit 24 bits
tokens can be told apart, are taken apart into table and position, and lead to the row that
was inserted or last assigned there (`tokens_name_rows`).
-/

namespace QuillImage.Metadata

/-! ## Tokens of rows -/

namespace Table

/-- The number of a table and the position of a row are joined without a cut. -/
theorem toNat_token (t : Table) (index : UInt32) :
    (t.token index).toNat = t.number <<< 24 ||| index.toNat := by
  have hnumber : t.number <<< 24 < 2 ^ 32 := by
    have hlt := t.number_lt
    rw [Nat.shiftLeft_eq]
    omega
  exact UInt32.toNat_ofNat_of_lt (Nat.or_lt_two_pow hnumber index.toNat_lt)

/-- A token is taken apart into the table and the position exactly if the position fits 24
bits. -/
theorem decodeToken_token_iff (t : Table) (index : UInt32) :
    decodeToken (t.token index) = (t.number, index.toNat) ↔ index.toNat < 2 ^ 24 := by
  constructor
  · intro h
    have hposition : index.toNat = index.toNat % 2 ^ 24 := by
      rw [← decodeToken_token_snd t index, h]
    rw [hposition]
    exact Nat.mod_lt _ (Nat.two_pow_pos 24)
  · intro h
    have hor := Nat.two_pow_add_eq_or_of_lt h t.number
    rw [decodeToken, toNat_token, Nat.shiftLeft_eq, Nat.mul_comm, ← hor, Prod.mk.injEq]
    omega

end Table

/-! ## Rows at positions -/

namespace Tables

variable {ts ts' : Tables} {t u : Table} {k : Nat} {r : Row t}

theorem row?_push_of_row? (h : ts.row? t k = some r) (row : Row u) :
    (ts.push row).2.row? t k = some r := by
  have hpos := ts.pos_of_row? h
  rw [row?, if_neg hpos.ne'] at h ⊢
  by_cases htu : t = u
  · subst htu
    have hlt := (Array.getElem?_eq_some_iff.1 h).1
    rwa [get_push_self, Array.getElem?_push, if_neg hlt.ne]
  · rwa [get_push_of_ne ts htu]

/-- A row stands one past those before it. -/
theorem row?_push_self (ts : Tables) (row : Row t) :
    (ts.push row).2.row? t (ts.rowCount t + 1) = some row := by
  rw [row?, if_neg (Nat.succ_ne_zero _), get_push_self]
  exact Array.getElem?_push_size

/-- A row that is replaced is the new one, and all others of its table stay. -/
theorem row?_of_setRow? {index : Nat} {row : Row t} (h : ts.setRow? index row = some ts') (k : Nat) :
    ts'.row? t k = if index = k then some row else ts.row? t k := by
  obtain ⟨old, hold, rfl⟩ := Option.map_eq_some_iff.1 h
  have hpos := ts.pos_of_row? hold
  rw [row?, if_neg hpos.ne'] at hold
  have hlt := (Array.getElem?_eq_some_iff.1 hold).1
  rw [row?, RowStore.get_modify_self ts (Table.mem_all t), Array.getElem?_setIfInBounds, row?]
  grind

theorem row?_of_setRow?_of_ne {index : Nat} {row : Row u} (h : ts.setRow? index row = some ts')
    (hne : t ≠ u) (k : Nat) : ts'.row? t k = ts.row? t k := by
  obtain ⟨_, -, rfl⟩ := Option.map_eq_some_iff.1 h
  rw [row?, RowStore.get_modify_of_ne ts hne]
  rfl

end Tables

namespace Database

/-! ## Positions in a run -/

/-- The number of rows that operations append to a table. -/
def appended (t : Table) (ops : List Operation) : Nat :=
  ops.countP fun op => op.table? = some t

theorem rowCount_runAll (db : Database) (ops : List Operation) (t : Table) :
    (db.runAll ops).2.tables.rowCount t = db.tables.rowCount t + appended t ops := by
  induction ops generalizing db with
  | nil => rfl
  | cons op ops ih =>
    rw [runAll_cons, ih, op.rowCount_run, appended, appended, List.countP_cons]
    simp only [decide_eq_true_eq]
    omega

theorem rowCount_runAll_new (version : String) (ops : List Operation) (t : Table) :
    (runAll { version } ops).2.tables.rowCount t = appended t ops := by
  have hempty : ({ version } : Database).tables.rowCount t = 0 := by
    rw [Tables.rowCount, Tables.get_empty, Array.size_empty]
  rw [rowCount_runAll, hempty, Nat.zero_add]

section Moment

variable {db : Database} {ops : List Operation} {i : Nat} {op : Operation}

theorem eq_take_append_cons_drop (h : ops[i]? = some op) :
    ops = ops.take i ++ op :: ops.drop (i + 1) := by
  obtain ⟨hi, rfl⟩ := List.getElem?_eq_some_iff.1 h
  rw [← List.drop_eq_getElem_cons hi, List.take_append_drop]

/-- The reply to an operation of a run. -/
theorem getElem?_runAll (db : Database) (h : ops[i]? = some op) :
    (db.runAll ops).1[i]? = some (op.run (db.runAll (ops.take i)).2).1 := by
  induction ops generalizing db i with
  | nil => cases h
  | cons first ops ih =>
    rw [runAll_cons]
    cases i with
    | zero =>
      obtain rfl := Option.some.inj h
      rfl
    | succ i => exact ih (first.run db).2 h

/-- What comes after an operation of a run. -/
theorem runAll_eq_of_getElem? (db : Database) (h : ops[i]? = some op) :
    (db.runAll ops).2 = ((op.run (db.runAll (ops.take i)).2).2.runAll (ops.drop (i + 1))).2 := by
  rw [← runAll_split, ← eq_take_append_cons_drop h]

/-- An operation that appends a row makes it the next row of its table. -/
theorem appended_take_succ (h : ops[i]? = some op) {t : Table} (ht : op.table? = some t) :
    appended t (ops.take (i + 1)) = appended t (ops.take i) + 1 := by
  rw [List.take_add_one, h, appended, appended, List.countP_append]
  simp [ht]

end Moment

/-! ## Rows that were assigned -/

/-- The row at position `k` of a table after an operation, if it was `r` before. -/
def Operation.assign (t : Table) (k : Nat) (r : Row t) : Operation → Row t
  | setRow (t := u) index new => if h : u = t then if index.toNat = k then h ▸ new else r else r
  | string _ | userString _ | blob _ | guid _ _ | row _ | rowToken _ => r

/-- The row at position `k` of a table after operations, if it was `r` before. -/
def assigned (t : Table) (k : Nat) (r : Row t) (ops : List Operation) : Row t :=
  ops.foldl (Operation.assign t k) r

section Assigned

variable {t : Table} {k : Nat} {r : Row t}

/-- A row stays where it is, and is the one that was last assigned. -/
theorem Operation.row?_run {db : Database} (h : db.tables.row? t k = some r) (op : Operation) :
    (op.run db).2.tables.row? t k = some (op.assign t k r) := by
  cases op with
  | string s | userString s | blob value | guid value _ =>
    rw [tables_run_of_heap? db (by simp [heap?])]
    exact h
  | row row | rowToken row => exact Tables.row?_push_of_row? h row
  | @setRow u index row =>
    simp only [run, assign]
    split
    · next db' hset =>
      obtain ⟨tables, htables, rfl⟩ := Option.map_eq_some_iff.1 hset
      split
      · next htu =>
        subst htu
        rw [Tables.row?_of_setRow? htables, h]
        split <;> rfl
      · next htu => rwa [Tables.row?_of_setRow?_of_ne htables (Ne.symm htu)]
    · next hset =>
      have hnone := Option.map_eq_none_iff.1 (Option.map_eq_none_iff.1 hset)
      split
      · next htu =>
        subst htu
        have hne : index.toNat ≠ k := by
          rintro rfl
          rw [h] at hnone
          cases hnone
        rwa [if_neg hne]
      · exact h

theorem row?_runAll {db : Database} (h : db.tables.row? t k = some r) (ops : List Operation) :
    (db.runAll ops).2.tables.row? t k = some (assigned t k r ops) := by
  induction ops generalizing db r with
  | nil => exact h
  | cons op ops ih =>
    rw [runAll_cons]
    exact ih (op.row?_run h)

end Assigned

/-- A row that was appended is found at its position, with what was assigned later. -/
theorem row?_runAll_of_getElem? (version : String) {ops : List Operation} {i : Nat} {t : Table}
    {r : Row t} (h : ops[i]? = some (.row r) ∨ ops[i]? = some (.rowToken r)) :
    (runAll { version } ops).2.tables.row? t (appended t (ops.take (i + 1))) =
      some (assigned t (appended t (ops.take (i + 1))) r (ops.drop (i + 1))) := by
  obtain ⟨op, hop, htable, hrun⟩ : ∃ op, ops[i]? = some op ∧ op.table? = some t ∧
      ∀ db, (Operation.run db op).2.tables = (db.tables.push r).2 := by
    rcases h with h | h
    · exact ⟨_, h, rfl, fun _ => rfl⟩
    · exact ⟨_, h, rfl, fun _ => rfl⟩
  rw [runAll_eq_of_getElem? _ hop]
  apply row?_runAll
  rw [hrun, appended_take_succ hop htable, ← rowCount_runAll_new version]
  exact Tables.row?_push_self _ r

/-! ## What tokens name -/

/-- What tokens name: the rows of a table, or literals. -/
inductive TokenKind where
  | rows (t : Table)
  | literals

namespace TokenKind

/-- The high byte of the tokens. -/
def number : TokenKind → Nat
  | rows t => t.number
  | literals => 0x70

theorem eq_of_number_eq {m n : TokenKind} (h : m.number = n.number) : m = n := by
  cases m with
  | rows t =>
    cases n with
    | rows u => rw [Table.eq_of_number_eq h]
    | literals =>
      have hlt := t.number_lt
      simp only [number] at h
      omega
  | literals =>
    cases n with
    | rows u =>
      have hlt := u.number_lt
      simp only [number] at h
      omega
    | literals => rfl

end TokenKind

/-- The position that the next token of a kind names. -/
def next (db : Database) : TokenKind → Nat
  | .rows t => db.tables.rowCount t + 1
  | .literals => db.heaps.userStrings.size

/-- The kind of token that an operation asks for. -/
def Operation.tokenKind? : Operation → Option TokenKind
  | rowToken (t := t) _ => some (.rows t)
  | userString _ => some .literals
  | string _ | blob _ | guid _ _ | row _ | setRow _ _ => none

/-- The token that a reply gives back. -/
def token? (op : Operation) (reply : Reply) : Option UInt32 :=
  op.tokenKind?.bind fun _ => reply.value?

/-- The tokens that the replies to operations give back, in the order of the operations. -/
def tokens (ops : List Operation) (replies : List Reply) : List UInt32 :=
  (ops.zip replies).filterMap fun e => token? e.1 e.2

theorem next_le_run (op : Operation) (db : Database) (kind : TokenKind) :
    db.next kind ≤ (op.run db).2.next kind := by
  cases kind with
  | rows t =>
    rw [next, next, op.rowCount_run]
    omega
  | literals => exact (op.growTo_run db).size_le .userStrings

theorem next_le_runAll (db : Database) (ops : List Operation) (kind : TokenKind) :
    db.next kind ≤ (db.runAll ops).2.next kind :=
  runAll_preserves (I := fun db' => db.next kind ≤ db'.next kind)
    (fun op db' h => h.trans (next_le_run op db' kind)) le_rfl ops

/-- A token names the next position of its kind, and is taken apart into both if the position
fits 24 bits. The position after it is the next one from then on. -/
theorem exists_tokenKind_of_token? {op : Operation} {db : Database} {v : UInt32}
    (h : token? op (op.run db).1 = some v) :
    ∃ kind, op.tokenKind? = some kind ∧ db.next kind < (op.run db).2.next kind ∧
      (db.next kind < 2 ^ 24 → decodeToken v = (kind.number, db.next kind)) := by
  obtain ⟨kind, hkind, hvalue⟩ := Option.bind_eq_some_iff.1 h
  refine ⟨kind, hkind, ?_⟩
  cases op with
  | string s | blob value | guid value _ | row r | setRow j r => cases hkind
  | @rowToken t r =>
    obtain rfl := Option.some.inj hkind
    constructor
    · rw [next, next, Operation.rowCount_run, Operation.table?, if_pos rfl]
      omega
    · intro hlt
      rw [Operation.run_rowToken_fst] at hvalue
      obtain rfl := Option.some.inj hvalue
      have hword : (UInt32.ofNat (db.tables.rowCount t + 1)).toNat = db.tables.rowCount t + 1 :=
        UInt32.toNat_ofNat_of_lt (hlt.trans (by norm_num))
      have hdecode := t.decodeToken_token_iff (UInt32.ofNat (db.tables.rowCount t + 1))
      rw [hword] at hdecode
      exact hdecode.2 hlt
  | userString s =>
    obtain rfl := Option.some.inj hkind
    obtain ⟨entry, hentry, rfl⟩ := exists_insertion?_of_value (n := .userStrings) rfl hvalue
    constructor
    · have hadd := (db.heaps.get .userStrings).size_add_length_le entry
      have hpos := (Operation.length_of_insertion? hentry).1
      rw [Operation.run_of_insertion? db hentry]
      exact Nat.lt_of_lt_of_le (Nat.lt_add_of_pos_right hpos) hadd
    · intro hlt
      have htoken : (HeapName.userStrings.reference (db.heaps.get .userStrings).size).toNat =
          0x70000000 + db.next .literals := HeapName.toNat_reference_userStrings hlt
      rw [decodeToken, htoken, TokenKind.number, Prod.mk.injEq]
      omega

theorem tokens_cons (op : Operation) (ops : List Operation) (reply : Reply)
    (replies : List Reply) :
    tokens (op :: ops) (reply :: replies) = (token? op reply).toList ++ tokens ops replies := by
  rw [tokens, List.zip_cons_cons, List.filterMap_cons]
  cases token? op reply <;> rfl

/-- The tokens that a run gives back name positions that were not named before, and no two of
them are equal. -/
theorem nodup_tokens_runAll {db : Database} {ops : List Operation}
    (hfits : ∀ kind, (db.runAll ops).2.next kind ≤ 2 ^ 24) :
    (∀ v ∈ tokens ops (db.runAll ops).1, ∃ kind position, db.next kind ≤ position ∧
      decodeToken v = (kind.number, position)) ∧ (tokens ops (db.runAll ops).1).Nodup := by
  induction ops generalizing db with
  | nil => simp [tokens]
  | cons op ops ih =>
    rw [runAll_cons] at hfits ⊢
    obtain ⟨hlater, hnodup⟩ := ih hfits
    have hlater' : ∀ v ∈ tokens ops ((op.run db).2.runAll ops).1, ∃ kind position,
        db.next kind ≤ position ∧ decodeToken v = (kind.number, position) := by
      intro v hv
      obtain ⟨kind, position, hle, hdecode⟩ := hlater v hv
      exact ⟨kind, position, (next_le_run op db kind).trans hle, hdecode⟩
    rw [tokens_cons]
    cases htoken : token? op (op.run db).1 with
    | none => exact ⟨hlater', hnodup⟩
    | some v =>
      obtain ⟨kind, -, hlt, hdecode⟩ := exists_tokenKind_of_token? htoken
      have hdecode := hdecode
        (hlt.trans_le ((next_le_runAll (op.run db).2 ops kind).trans (hfits kind)))
      constructor
      · exact List.forall_mem_cons.2 ⟨⟨kind, _, le_rfl, hdecode⟩, hlater'⟩
      · refine List.nodup_cons.2 ⟨fun hv => ?_, hnodup⟩
        obtain ⟨kind', position, hle, hdecode'⟩ := hlater v hv
        rw [hdecode] at hdecode'
        obtain ⟨hnumber, rfl⟩ := Prod.mk.inj hdecode'
        obtain rfl := TokenKind.eq_of_number_eq hnumber
        exact absurd hlt (Nat.not_lt.2 hle)

/-- A token of a run is taken apart into its kind and the position that was next when it was
given back. -/
theorem decodeToken_of_getElem? {db : Database} {ops : List Operation} {i : Nat} {op : Operation}
    {reply : Reply} {v : UInt32} (hfits : ∀ kind, (db.runAll ops).2.next kind ≤ 2 ^ 24)
    (hop : ops[i]? = some op) (hreply : (db.runAll ops).1[i]? = some reply)
    (htoken : token? op reply = some v) :
    ∃ kind, op.tokenKind? = some kind ∧
      decodeToken v = (kind.number, (db.runAll (ops.take i)).2.next kind) := by
  rw [getElem?_runAll db hop] at hreply
  obtain rfl := Option.some.inj hreply
  obtain ⟨kind, hkind, hlt, hdecode⟩ := exists_tokenKind_of_token? htoken
  have hle := next_le_runAll (op.run (db.runAll (ops.take i)).2).2 (ops.drop (i + 1)) kind
  rw [← runAll_eq_of_getElem? db hop] at hle
  exact ⟨kind, hkind, hdecode (hlt.trans_le (hle.trans (hfits kind)))⟩

/-! ## Tokens of a run -/

section Tokens

variable {version : String} {ops : List Operation} {replies : List Reply} {db : Database}

/-- In every run, the `k`-th row of a table gets the position `k`, or the token of that
position. A token is taken apart into table and position exactly if the position fits 24 bits.
As long as all tables have fewer than `2 ^ 24` rows and the literals take less than `2 ^ 24`
bytes, no two tokens of a run are equal, each is taken apart into its table, or `0x70`, and
its position, and at the position of a row stands the row that was inserted or last assigned
there. -/
theorem tokens_name_rows (hrun : runAll { version } ops = (replies, db)) :
    (∀ (i : Nat) t (r : Row t), ops[i]? = some (.row r) →
      replies[i]? = some (.value (UInt32.ofNat (appended t (ops.take (i + 1)))))) ∧
    (∀ (i : Nat) t (r : Row t), ops[i]? = some (.rowToken r) →
      replies[i]? = some (.value (t.token (UInt32.ofNat (appended t (ops.take (i + 1))))))) ∧
    (∀ (t : Table) (index : UInt32), (t.token index).toNat = t.number <<< 24 ||| index.toNat ∧
      (decodeToken (t.token index) = (t.number, index.toNat) ↔ index.toNat < 2 ^ 24)) ∧
    ((∀ t, db.tables.rowCount t < 2 ^ 24) → db.heaps.userStrings.size < 2 ^ 24 →
      (tokens ops replies).Nodup ∧
      (∀ (i : Nat) t (r : Row t) v, ops[i]? = some (.rowToken r) →
        replies[i]? = some (.value v) →
          decodeToken v = (t.number, appended t (ops.take (i + 1)))) ∧
      (∀ (i : Nat) s v, ops[i]? = some (.userString s) → replies[i]? = some (.value v) →
        decodeToken v = (0x70, (runAll { version } (ops.take i)).2.heaps.userStrings.size)) ∧
      ∀ (i : Nat) t (r : Row t), ops[i]? = some (.row r) ∨ ops[i]? = some (.rowToken r) →
        db.row? t (UInt32.ofNat (appended t (ops.take (i + 1)))) =
          some (assigned t (appended t (ops.take (i + 1))) r (ops.drop (i + 1)))) := by
  obtain rfl : (runAll { version } ops).1 = replies := congrArg Prod.fst hrun
  obtain rfl : (runAll { version } ops).2 = db := congrArg Prod.snd hrun
  refine ⟨?_, ?_, ?_, ?_⟩
  · intro i t r h
    rw [getElem?_runAll _ h, Operation.run_row_fst, rowCount_runAll_new, appended_take_succ h rfl]
  · intro i t r h
    rw [getElem?_runAll _ h, Operation.run_rowToken_fst, rowCount_runAll_new,
      appended_take_succ h rfl]
  · intro t index
    exact ⟨t.toNat_token index, t.decodeToken_token_iff index⟩
  · intro hrows hliterals
    -- the position after the last one of each kind is at most `2 ^ 24`
    have hfits : ∀ kind, (runAll { version } ops).2.next kind ≤ 2 ^ 24 := by
      intro kind
      cases kind with
      | rows t => exact hrows t
      | literals => exact hliterals.le
    refine ⟨(nodup_tokens_runAll hfits).2, ?_, ?_, ?_⟩
    · intro i t r v h hv
      obtain ⟨kind, hkind, hdecode⟩ := decodeToken_of_getElem? hfits h hv rfl
      obtain rfl := Option.some.inj hkind
      rw [hdecode, next, rowCount_runAll_new, ← appended_take_succ h rfl]
      rfl
    · intro i s v h hv
      obtain ⟨kind, hkind, hdecode⟩ := decodeToken_of_getElem? hfits h hv rfl
      obtain rfl := Option.some.inj hkind
      exact hdecode
    · intro i t r h
      have hle : appended t (ops.take (i + 1)) ≤ appended t ops :=
        (List.take_sublist (i + 1) ops).countP_le
      have hlt := hrows t
      rw [rowCount_runAll_new] at hlt
      have hword : (UInt32.ofNat (appended t (ops.take (i + 1)))).toNat =
          appended t (ops.take (i + 1)) :=
        UInt32.toNat_ofNat_of_lt ((hle.trans_lt hlt).trans (by norm_num))
      rw [row?, hword]
      exact row?_runAll_of_getElem? version h

end Tokens

/-- Rows of two tables and literals in turn, and a position that is assigned before it has a
row and twice after that. -/
def mixedTokens : List Operation :=
  [.rowToken (Row.module 0 0), .userString "a", .setRow 2 (Row.typeDef 0 7 7),
    .row (Row.typeDef 0 1 1), .rowToken (Row.typeDef 4 1 1), .userString "",
    .userString (String.ofList (List.replicate 64 'x')), .setRow 2 (Row.typeDef 4 2 1),
    .rowToken (Row.module 4 0), .setRow 2 (Row.typeDef 4 3 2), .userString "a",
    .rowToken (Row.typeDef 8 1 1)]

theorem tokens_name_rows_mixedTokens :
    (∀ t, (runAll { version := "v1" } mixedTokens).2.tables.rowCount t < 2 ^ 24) ∧
      (runAll { version := "v1" } mixedTokens).2.heaps.userStrings.size < 2 ^ 24 ∧
      (tokens mixedTokens (runAll { version := "v1" } mixedTokens).1).Nodup ∧
      (runAll { version := "v1" } mixedTokens).1[4]? = some (.value 0x02000002) ∧
      decodeToken 0x02000002 = (Table.typeDef.number, 2) ∧
      (runAll { version := "v1" } mixedTokens).2.row? .typeDef 2 = some (Row.typeDef 4 3 2) := by
  have hrows : ∀ t, (runAll { version := "v1" } mixedTokens).2.tables.rowCount t < 2 ^ 24 := by
    intro t
    rw [rowCount_runAll_new]
    exact List.countP_le_length.trans_lt (by decide)
  have hliterals : (runAll { version := "v1" } mixedTokens).2.heaps.userStrings.size < 2 ^ 24 := by
    decide +kernel
  obtain ⟨-, htoken, -, hbounded⟩ :=
    tokens_name_rows (rfl : runAll { version := "v1" } mixedTokens = _)
  obtain ⟨hnodup, hdecode, -, hrow⟩ := hbounded hrows hliterals
  have hreply := htoken 4 .typeDef (Row.typeDef 4 1 1) rfl
  exact ⟨hrows, hliterals, hnodup, hreply, hdecode 4 .typeDef _ _ rfl hreply,
    hrow 4 .typeDef (Row.typeDef 4 1 1) (.inr rfl)⟩

end Database

end QuillImage.Metadata
