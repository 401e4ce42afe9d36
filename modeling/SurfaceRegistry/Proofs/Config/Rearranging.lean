import Mathlib
import SurfaceRegistry.Proofs.Config.Reading

/-!
# Configurations in another order

A document with the keys of another one in a different order, in its own table and in those inside it, gives the same
configuration or the same error (`Config.parse_eq_of_rearranged`).
-/

namespace SurfaceRegistry.Toml

mutual

/-- A value is another one with the keys of its tables in another order. -/
inductive Value.Rearranged : Value → Value → Prop where
  /-- The same value. -/
  | same (v : Value) : Value.Rearranged v v
  /-- Lists of values that are rearranged one by one. -/
  | array {vs ws : List Value} : List.Forall₂ Value.Rearranged vs ws → Value.Rearranged (.array vs) (.array ws)
  /-- Tables with the same keys in any order, and values that are rearranged one by one. -/
  | table {t u w : Table} : t.Perm u → List.Forall₂ EntryRearranged u w → Value.Rearranged (.table t) (.table w)

/-- An entry has the same key as another one, and its value rearranged. -/
inductive EntryRearranged : String × Value → String × Value → Prop where
  /-- Both have the key. -/
  | mk {v w : Value} (name : String) : Value.Rearranged v w → EntryRearranged (name, v) (name, w)

end

theorem EntryRearranged.key_eq {e f : String × Value} (h : EntryRearranged e f) : e.1 = f.1 := by
  cases h
  rfl

end SurfaceRegistry.Toml

namespace SurfaceRegistry.Config

open Toml (Value Table EntryRearranged keys)

variable {c : Config} {name : String} {t t' u : Table} {v w : Value}

theorem decodeText_rearranged (h : v.Rearranged w) : decodeText v = decodeText w := by
  cases h <;> rfl

theorem decodeFlag_rearranged (h : v.Rearranged w) : decodeFlag v = decodeFlag w := by
  cases h <;> rfl

theorem decodeTexts_rearranged (h : v.Rearranged w) : decodeTexts v = decodeTexts w := by
  cases h with
  | same => rfl
  | table => rfl
  | array h =>
    rw [decodeTexts, decodeTexts]
    induction h with
    | nil => rfl
    | cons hv _ ih => rw [List.mapM_cons, List.mapM_cons, decodeText_rearranged hv, ih]

theorem addField_rearranged (h : v.Rearranged w) : addField c name v = addField c name w := by
  simp only [addField, decodeText_rearranged h, decodeTexts_rearranged h, decodeFlag_rearranged h]

theorem foldlM_addField_rearranged (h : List.Forall₂ EntryRearranged t t') (c : Config) :
    t.foldlM (fun c e => addField c e.1 e.2) c = t'.foldlM (fun c e => addField c e.1 e.2) c := by
  induction h generalizing c with
  | nil => rfl
  | cons he _ ih =>
    obtain ⟨name, hv⟩ := he
    rw [List.foldlM_cons, List.foldlM_cons, addField_rearranged hv]
    exact bind_congr ih

/-- Entries with different keys have one order only. -/
theorem sortedEntries_eq_of_perm (hn : (keys t).Nodup) (h : t.Perm t') : sortedEntries t = sortedEntries t' := by
  have hordered : ∀ t : Table, (sortedEntries t).Pairwise fun e f => Text.bytesLe e.1 f.1 = true :=
    List.pairwise_mergeSort (fun _ _ _ => Text.bytesLe_trans) fun _ _ => Text.bytesLe_total _ _
  refine List.Perm.eq_of_pairwise ?_ (hordered t) (hordered t') ?_
  · intro e f he hf hef hfe
    have he : e ∈ t := (sortedEntries_perm t).mem_iff.mp he
    have hf : f ∈ t := h.mem_iff.mpr ((sortedEntries_perm t').mem_iff.mp hf)
    exact List.inj_on_of_nodup_map hn he hf (Text.bytesLe_antisymm hef hfe)
  · exact (sortedEntries_perm t).trans (h.trans (sortedEntries_perm t').symm)

/-- Entries that are rearranged one by one still are when they stand in the order of their keys. -/
theorem sortedEntries_rearranged (h : List.Forall₂ EntryRearranged t t') :
    List.Forall₂ EntryRearranged (sortedEntries t) (sortedEntries t') := by
  have hl : ∀ p ∈ t.zip t', EntryRearranged p.1 p.2 := fun p hp => (List.forall₂_iff_zip.mp h).2 hp
  let pairs := (t.zip t').mergeSort fun p q => Text.bytesLe p.1.1 q.1.1
  -- Both sides of a pair have one key, so sorting the pairs sorts either side.
  have hleft : pairs.map Prod.fst = sortedEntries t :=
    calc pairs.map Prod.fst
      _ = ((t.zip t').map Prod.fst).mergeSort fun e f => Text.bytesLe e.1 f.1 :=
          List.map_mergeSort fun _ _ _ _ => rfl
      _ = sortedEntries t := by rw [List.map_fst_zip (Nat.le_of_eq h.length_eq), sortedEntries]
  have hright : pairs.map Prod.snd = sortedEntries t' :=
    calc pairs.map Prod.snd
      _ = ((t.zip t').map Prod.snd).mergeSort fun e f => Text.bytesLe e.1 f.1 :=
          List.map_mergeSort fun p hp q hq => by rw [(hl p hp).key_eq, (hl q hq).key_eq]
      _ = sortedEntries t' := by rw [List.map_snd_zip (Nat.le_of_eq h.length_eq.symm), sortedEntries]
  rw [← hleft, ← hright, List.forall₂_map_left_iff, List.forall₂_map_right_iff, List.forall₂_same]
  intro p hp
  exact hl p ((List.mergeSort_perm _ _).mem_iff.mp hp)

theorem ofTable_rearranged (hn : (keys t).Nodup) (h : (Value.table t).Rearranged (.table t')) :
    ofTable t = ofTable t' := by
  cases h with
  | same => rfl
  | table hperm hvalues =>
    rw [ofTable, ofTable, sortedEntries_eq_of_perm hn hperm]
    exact foldlM_addField_rearranged (sortedEntries_rearranged hvalues) {}

theorem parse_eq_of_rearranged {document document' : String} (ht : Toml.parse? document = some t)
    (ht' : Toml.parse? document' = some t') (h : (Value.table t).Rearranged (.table t')) :
    parse document = parse document' := by
  rw [parse, parse, ht, ht']
  exact congrArg (·.bind checkSchema) (ofTable_rearranged (Toml.nodup_keys_of_parse? ht) h)

/-! ### Documents -/

/-- A document is read as a configuration if and only if every entry of its table is one of the fields with a value of
its kind and the version, if there is one, is the supported one. The configuration is the one that holds the entries of
the table, and what the empty one holds under every other name. A document with the same keys and values in another
order gives the same configuration or the same error. -/
theorem parse_reads_table :
    (∀ document t, Toml.parse? document = some t →
      ((∃ c, parse document = .ok c) ↔ Fits t) ∧ ∀ c, parse document = .ok c ↔ Fits t ∧ c.Holds t) ∧
    ∀ document document' t t', Toml.parse? document = some t → Toml.parse? document' = some t' →
      (Value.table t).Rearranged (.table t') → parse document = parse document' :=
  ⟨fun _ _ ht => ⟨exists_parse_iff ht, fun _ => parse_eq_ok_iff ht⟩,
    fun _ _ _ _ ht ht' h => parse_eq_of_rearranged ht ht' h⟩

/-- A version with a list of type names, in either order, and a table in the place of the version. -/
theorem parse_reads_table_of_swapped :
    (∃ c, parse "schema = 'surfacereg.config.v1'\nignored_types = ['a.B']" = .ok c ∧
      c.value? "ignored_types" = some (.array [.string "a.B"]) ∧ c.value? "fail_on" = none) ∧
    parse "schema = 'surfacereg.config.v1'\nignored_types = ['a.B']" =
      parse "ignored_types = ['a.B']\nschema = 'surfacereg.config.v1'" ∧
    parse "schema = \x7ba = 1, b = 2\x7d" = parse "schema = \x7bb = 2, a = 1\x7d" := by
  let version : String × Value := ("schema", .string schemaName)
  let types : String × Value := ("ignored_types", .array [.string "a.B"])
  have ht : Toml.parse? "schema = 'surfacereg.config.v1'\nignored_types = ['a.B']" = some [version, types] := by
    cbv
  have ht' : Toml.parse? "ignored_types = ['a.B']\nschema = 'surfacereg.config.v1'" = some [types, version] := by
    cbv
  have hfits : Fits [version, types] := by
    constructor
    · intro e he
      rcases List.mem_pair.mp he with rfl | rfl
      · exact ⟨.optionalText, by decide, .text _⟩
      · exact ⟨.texts, by decide, .texts ["a.B"]⟩
    · intro v hv
      rcases List.mem_pair.mp hv with hv | hv
      · exact (Prod.mk.inj hv).2
      · simp [types] at hv
  obtain ⟨hexists, hread⟩ := parse_reads_table.1 _ _ ht
  refine ⟨?_, parse_reads_table.2 _ _ _ _ ht ht' ?_, ?_⟩
  · obtain ⟨c, hc⟩ := hexists.mpr hfits
    have hholds := ((hread c).mp hc).2
    exact ⟨c, hc, hholds "ignored_types", hholds "fail_on"⟩
  · exact .table (List.Perm.swap _ _ _) (List.forall₂_same.mpr fun e _ => .mk e.1 (.same e.2))
  · have hone : Toml.parse? "schema = \x7ba = 1, b = 2\x7d" =
        some [("schema", .table [("a", .integer 1), ("b", .integer 2)])] := by
      cbv
    have htwo : Toml.parse? "schema = \x7bb = 2, a = 1\x7d" =
        some [("schema", .table [("b", .integer 2), ("a", .integer 1)])] := by
      cbv
    have hinner : (Value.table [("a", .integer 1), ("b", .integer 2)]).Rearranged
        (.table [("b", .integer 2), ("a", .integer 1)]) :=
      .table (List.Perm.swap _ _ _) (List.forall₂_same.mpr fun e _ => .mk e.1 (.same e.2))
    exact parse_reads_table.2 _ _ _ _ hone htwo (.table (List.Perm.refl _) (.cons (.mk _ hinner) .nil))

end SurfaceRegistry.Config
