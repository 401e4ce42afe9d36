import SurfaceRegistry.Proofs.Json.Decoding
import SurfaceRegistry.Failure

/-!
# What a reader of JSON gives

Whatever the spelling of a document, a value that is read from it is in normal form, but for numbers that
are no integers (`readable_of_decodeAny`): an integer is kept only if it has 64 bits, a member is put among
the others in the order of the keys and in the place of one with its key, and each array or object is
counted before it is entered. What is to be shown of a structure is shown field by field
(`Model.decode_keeps`).
-/

namespace SurfaceRegistry.Json

/-! ### Integers and depth -/

theorem Numeral.fits64_of_toInteger? {n : Numeral} {i : Int} (h : n.toInteger? = some i) : Fits64 i := by
  unfold toInteger? at h
  unfold Fits64
  simp only [UInt64.size] at h
  split at h
  · cases h
  split at h
  · split at h
    · cases h
      omega
    · cases h
  · split at h
    · cases h
      omega
    · cases h

theorem FloatFree.of_mem_array {vs : List Json} (h : FloatFree (.array vs)) : ∀ v ∈ vs, v.FloatFree := by
  cases h
  assumption

theorem FloatFree.of_mem_object {ms : List (String × Json)} (h : FloatFree (.object ms)) :
    ∀ m ∈ ms, m.2.FloatFree := by
  cases h
  assumption

theorem itemsDepth_le {vs : List Json} {n : Nat} (h : ∀ v ∈ vs, v.depth ≤ n) : itemsDepth vs ≤ n := by
  induction vs with
  | nil => exact Nat.zero_le n
  | cons v vs ih =>
    exact Nat.max_le.mpr ⟨h v (by simp), ih fun u hu => h u (List.mem_cons_of_mem v hu)⟩

theorem membersDepth_le {ms : List (String × Json)} {n : Nat} (h : ∀ m ∈ ms, m.2.depth ≤ n) :
    membersDepth ms ≤ n := by
  induction ms with
  | nil => exact Nat.zero_le n
  | cons m ms ih =>
    exact Nat.max_le.mpr ⟨h m (by simp), ih fun u hu => h u (List.mem_cons_of_mem m hu)⟩

theorem enter_eq_ok {depth inner : Nat} (h : enter depth = .ok inner) :
    inner = depth + 1 ∧ depth < maxNesting := by
  unfold enter at h
  split at h
  · cases h
    exact ⟨rfl, by assumption⟩
  · cases h

/-! ### Members in their order -/

/-- Members in the order of their keys, each key once. -/
abbrev KeysAscend (ms : List (String × Json)) : Prop :=
  ms.Pairwise fun m m' => Text.compareBytes m.1 m'.1 = .lt

theorem mem_of_mem_insertMember {key : String} {v : Json} {ms : List (String × Json)}
    {m : String × Json} (h : m ∈ insertMember key v ms) : m = (key, v) ∨ m ∈ ms := by
  induction ms with
  | nil => exact .inl (List.mem_singleton.mp h)
  | cons p ms ih =>
    obtain ⟨k, w⟩ := p
    rw [insertMember] at h
    split at h
    · exact List.mem_cons.mp h
    · rcases List.mem_cons.mp h with h | h
      · exact .inl h
      · exact .inr (List.mem_cons_of_mem _ h)
    · rcases List.mem_cons.mp h with rfl | h
      · exact .inr List.mem_cons_self
      · exact (ih h).imp id (List.mem_cons_of_mem _)

theorem keysAscend_insertMember {ms : List (String × Json)} (h : KeysAscend ms) (key : String) (v : Json) :
    KeysAscend (insertMember key v ms) := by
  induction ms with
  | nil => exact List.pairwise_singleton _ _
  | cons p ms ih =>
    obtain ⟨k, w⟩ := p
    obtain ⟨hk, hs⟩ := List.pairwise_cons.mp h
    rw [insertMember]
    split
    · rename_i hlt
      refine List.pairwise_cons.mpr ⟨fun m hm => ?_, h⟩
      rcases List.mem_cons.mp hm with rfl | hm
      · exact hlt
      · exact Std.TransCmp.lt_trans hlt (hk m hm)
    · rename_i heq
      refine List.pairwise_cons.mpr ⟨fun m hm => ?_, hs⟩
      exact (Std.TransCmp.congr_left heq).trans (hk m hm)
    · rename_i hgt
      refine List.pairwise_cons.mpr ⟨fun m hm => ?_, ih hs⟩
      rcases mem_of_mem_insertMember hm with rfl | hm
      · exact Std.OrientedCmp.lt_of_gt hgt
      · exact hk m hm

/-! ### Any value -/

/-- What a reader inside `depth` arrays and objects gives: a value in normal form if it has no other numbers
than integers, and no deeper than arrays and objects may lie inside one another. -/
structure Readable (depth : Nat) (v : Json) : Prop where
  canonical : v.FloatFree → v.IsCanonical
  depth_le : depth + v.depth ≤ maxNesting

theorem readable_of_value? {n : Numeral} {v : Json} {depth : Nat} (hd : depth ≤ maxNesting)
    (h : n.value? = some v) : Readable depth v := by
  rw [Numeral.value?] at h
  cases hi : n.toInteger? with
  | some i =>
    rw [hi] at h
    cases h
    exact ⟨fun _ => .integer (Numeral.fits64_of_toInteger? hi), hd⟩
  | none =>
    rw [hi] at h
    obtain ⟨x, -, rfl⟩ := Option.map_eq_some_iff.mp h
    refine ⟨fun hfree => ?_, hd⟩
    cases hfree

mutual

theorem readable_of_decodeAny (t : Tree) {depth : Nat} {v : Json} (hd : depth ≤ maxNesting)
    (h : decodeAny depth t = .ok v) : Readable depth v := by
  cases t with
  | null =>
    cases h
    exact ⟨fun _ => .null, hd⟩
  | bool b =>
    cases h
    exact ⟨fun _ => .bool b, hd⟩
  | number n =>
    rw [decodeAny] at h
    split at h
    · rename_i hv
      cases h
      exact readable_of_value? hd hv
    · cases h
  | string s =>
    cases s with
    | none => cases h
    | some s =>
      cases h
      exact ⟨fun _ => .string s, hd⟩
  | array items closed =>
    rw [decodeAny] at h
    obtain ⟨inner, hinner, h⟩ := exists_of_bind_eq_ok h
    obtain ⟨rfl, hlt⟩ := enter_eq_ok hinner
    obtain ⟨vs, hvs, h⟩ := exists_of_bind_eq_ok h
    have hall := readable_of_decodeAll items hlt hvs
    split at h
    · cases h
      refine ⟨fun hf => .array fun v hv => (hall v hv).canonical (hf.of_mem_array v hv), ?_⟩
      have hdepth := itemsDepth_le (n := maxNesting - (depth + 1)) fun v hv => by
        have := (hall v hv).depth_le
        omega
      rw [Json.depth]
      omega
    · cases h
  | object members closed =>
    rw [decodeAny] at h
    obtain ⟨inner, hinner, h⟩ := exists_of_bind_eq_ok h
    obtain ⟨rfl, hlt⟩ := enter_eq_ok hinner
    obtain ⟨ms, hms, h⟩ := exists_of_bind_eq_ok h
    obtain ⟨hsorted, hall⟩ := readable_of_decodeAllMembers members hlt .nil (by simp) hms
    split at h
    · cases h
      refine ⟨fun hf => .object hsorted fun m hm => (hall m hm).canonical (hf.of_mem_object m hm), ?_⟩
      have hdepth := membersDepth_le (n := maxNesting - (depth + 1)) fun m hm => by
        have := (hall m hm).depth_le
        omega
      rw [Json.depth]
      omega
    · cases h
  | badKey members key => cases h
  | broken => cases h

theorem readable_of_decodeAll (ts : List Tree) {depth : Nat} {vs : List Json} (hd : depth ≤ maxNesting)
    (h : decodeAll depth ts = .ok vs) : ∀ v ∈ vs, Readable depth v := by
  cases ts with
  | nil =>
    cases h
    simp
  | cons t ts =>
    rw [decodeAll] at h
    obtain ⟨v, hv, h⟩ := exists_of_bind_eq_ok h
    obtain ⟨vs, hvs, h⟩ := exists_of_bind_eq_ok h
    cases h
    exact List.forall_mem_cons.mpr ⟨readable_of_decodeAny t hd hv, readable_of_decodeAll ts hd hvs⟩

/-- Members stay in their order and readable while more are put among them. -/
theorem readable_of_decodeAllMembers (members : List (Option String × Tree)) {depth : Nat}
    {before ms : List (String × Json)} (hd : depth ≤ maxNesting) (hsorted : KeysAscend before)
    (hall : ∀ m ∈ before, Readable depth m.2) (h : decodeAllMembers depth before members = .ok ms) :
    KeysAscend ms ∧ ∀ m ∈ ms, Readable depth m.2 := by
  match members with
  | [] =>
    cases h
    exact ⟨hsorted, hall⟩
  | (none, _) :: _ => cases h
  | (some key, t) :: more =>
    rw [decodeAllMembers] at h
    obtain ⟨v, hv, h⟩ := exists_of_bind_eq_ok h
    refine readable_of_decodeAllMembers more hd (keysAscend_insertMember hsorted key v) ?_ h
    intro m hm
    rcases mem_of_mem_insertMember hm with rfl | hm
    · exact readable_of_decodeAny t hd hv
    · exact hall m hm

end

/-! ### Lists -/

variable {α β : Type}

theorem forall_mem_of_decodeItems {d : Decoder α} {P : α → Prop} {depth : Nat} {closed : Bool}
    {items : List Tree} {as : List α} (hd : ∀ t a, d depth t = .ok a → P a)
    (h : decodeItems d depth closed items = .ok as) : ∀ a ∈ as, P a := by
  induction items generalizing as with
  | nil =>
    rw [decodeItems] at h
    split at h
    · cases h
      simp
    · cases h
  | cons t ts ih =>
    obtain ⟨a, ha, h⟩ := exists_of_bind_eq_ok h
    obtain ⟨as, has, h⟩ := exists_of_bind_eq_ok h
    cases h
    exact List.forall_mem_cons.mpr ⟨hd t a ha, ih has⟩

/-- What holds of every value that is decoded holds of the items of a list. -/
theorem forall_mem_of_decodeList {d : Decoder α} {P : α → Prop} {depth : Nat} {t : Tree} {as : List α}
    (hd : ∀ t a, d (depth + 1) t = .ok a → P a) (h : decodeList d depth t = .ok as) :
    ∀ a ∈ as, P a := by
  cases t with
  | array items closed =>
    obtain ⟨inner, hinner, h⟩ := exists_of_bind_eq_ok h
    obtain ⟨rfl, -⟩ := enter_eq_ok hinner
    exact forall_mem_of_decodeItems hd h
  | _ =>
    obtain ⟨_, _, h⟩ := exists_of_bind_eq_ok h
    cases h

/-! ### Structures -/

/-- A field that sets a value keeps what holds of the structure. -/
def Field.Keeps (f : Field α) (depth : Nat) (P : α → Prop) : Prop :=
  ∀ t a b, f.set depth t a = .ok b → P a → P b

theorem Field.keeps_of {d : Decoder β} {set : β → α → α} {depth : Nat} {P : α → Prop}
    (h : ∀ t v a, d depth t = .ok v → P a → P (set v a)) (name : String) (presence : Presence) :
    (Field.of name presence d set).Keeps depth P := by
  intro t a b hb ha
  obtain ⟨v, hv, rfl⟩ := exists_of_map_eq_ok hb
  exact h t v a hv ha

/-- A field keeps what holds of a part of the structure that it does not touch. -/
theorem Field.keeps_of_eq {γ : Type} {d : Decoder β} {set : β → α → α} {depth : Nat} {part : α → γ}
    {P : γ → Prop} (h : ∀ v a, part (set v a) = part a) (name : String) (presence : Presence) :
    (Field.of name presence d set).Keeps depth fun a => P (part a) :=
  keeps_of (fun _ v a _ ha => (h v a).symm ▸ ha) name presence

namespace Model

variable {m : Model α} {depth : Nat} {P : α → Prop}

theorem decodeMembers_keeps (hm : ∀ f ∈ m.fields, f.Keeps depth P) {closed : Bool} {seen : List String}
    {a b : α} {members : List (Option String × Tree)} (ha : P a)
    (h : m.decodeMembers depth closed seen a members = .ok b) : P b := by
  induction members generalizing seen a with
  | nil =>
    rw [decodeMembers, finish] at h
    split at h
    · split at h
      · cases h
        exact ha
      · cases h
    · cases h
  | cons p more ih =>
    obtain ⟨key, t⟩ := p
    cases key with
    | none => cases h
    | some key =>
      rw [decodeMembers] at h
      split at h
      · split at h
        · exact ih ha h
        · cases h
      · rename_i f hf
        split at h
        · cases h
        · obtain ⟨c, hc, h⟩ := exists_of_bind_eq_ok h
          exact ih (hm f (List.mem_of_find?_eq_some hf) t a c hc ha) h

theorem decodeElements_keeps {fs : List (Field α)} (hm : ∀ f ∈ fs, f.Keeps depth P) {closed : Bool}
    {i : Nat} {a b : α} {items : List Tree} (ha : P a)
    (h : m.decodeElements depth closed fs i a items = .ok b) : P b := by
  induction fs generalizing i a items with
  | nil =>
    cases items with
    | nil =>
      rw [decodeElements] at h
      split at h
      · cases h
        exact ha
      · cases h
    | cons t ts => cases h
  | cons f fs ih =>
    have hfs : ∀ f ∈ fs, f.Keeps depth P := fun g hg => hm g (List.mem_cons_of_mem f hg)
    cases items with
    | nil =>
      rw [decodeElements] at h
      split at h
      · cases h
      · split at h
        · exact ih hfs ha h
        · cases h
    | cons t ts =>
      obtain ⟨c, hc, h⟩ := exists_of_bind_eq_ok h
      exact ih hfs (hm f List.mem_cons_self t a c hc ha) h

/-- What holds before any field is set, and is kept by every field, holds of what is decoded. -/
theorem decode_keeps (hm : ∀ f ∈ m.fields, f.Keeps (depth + 1) P) (hblank : P m.blank) {t : Tree} {a : α}
    (h : m.decode depth t = .ok a) : P a := by
  cases t with
  | object members closed =>
    obtain ⟨inner, hinner, h⟩ := exists_of_bind_eq_ok h
    obtain ⟨rfl, -⟩ := enter_eq_ok hinner
    exact decodeMembers_keeps hm hblank h
  | badKey members key =>
    obtain ⟨inner, hinner, h⟩ := exists_of_bind_eq_ok h
    obtain ⟨rfl, -⟩ := enter_eq_ok hinner
    exact decodeMembers_keeps hm hblank h
  | array items closed =>
    obtain ⟨inner, hinner, h⟩ := exists_of_bind_eq_ok h
    obtain ⟨rfl, -⟩ := enter_eq_ok hinner
    exact decodeElements_keeps hm hblank h
  | _ =>
    obtain ⟨_, _, h⟩ := exists_of_bind_eq_ok h
    cases h

end Model

end SurfaceRegistry.Json
