import SurfaceRegistry.Json.Decode
import SurfaceRegistry.Proofs.Json.Reading

/-!
# Decoding the trees of values

A value in normal form is decoded from its tree (`IsCanonical.decodesBack`): its integers have 64 bits, and
the members of its objects come in the order of their keys, so that putting them in their places one after
another leaves them in their order. A structure is decoded from an object with its required fields in their
order by setting these fields (`Model.decode_slots`).
-/

namespace SurfaceRegistry.Json

/-! ### Canonical values -/

/-- A value as a document can give it: integers of 64 bits and no other numbers, and in every object
each key once, in the order of their bytes. -/
inductive IsCanonical : Json → Prop where
  | null : IsCanonical .null
  | bool (b : Bool) : IsCanonical (.bool b)
  | integer {n : Int} (h : Fits64 n) : IsCanonical (.integer n)
  | string (s : String) : IsCanonical (.string s)
  | array {vs : List Json} : (∀ v ∈ vs, IsCanonical v) → IsCanonical (.array vs)
  | object {ms : List (String × Json)} :
      ms.Pairwise (fun m m' => Text.compareBytes m.1 m'.1 = .lt) → (∀ m ∈ ms, IsCanonical m.2) →
      IsCanonical (.object ms)

theorem IsCanonical.floatFree {v : Json} (h : IsCanonical v) : FloatFree v := by
  induction h with
  | null => exact .null
  | bool b => exact .bool b
  | integer _ => exact .integer _
  | string s => exact .string s
  | array _ ih => exact .array ih
  | object _ _ ih => exact .object ih

mutual

/-- How many arrays and objects lie inside one another. -/
def depth : Json → Nat
  | null | bool _ | integer _ | float _ | string _ => 0
  | array vs => itemsDepth vs + 1
  | object ms => membersDepth ms + 1

/-- The depth of the deepest item. -/
def itemsDepth : List Json → Nat
  | [] => 0
  | v :: vs => max v.depth (itemsDepth vs)

/-- The depth of the deepest member. -/
def membersDepth : List (String × Json) → Nat
  | [] => 0
  | (_, v) :: ms => max v.depth (membersDepth ms)

end

theorem enter_of_lt {depth : Nat} (h : depth < maxNesting) : enter depth = .ok (depth + 1) := if_pos h

/-- A member with the greatest key comes last. -/
theorem insertMember_last {key : String} {ms : List (String × Json)}
    (h : ∀ m ∈ ms, Text.compareBytes m.1 key = .lt) (v : Json) :
    insertMember key v ms = ms ++ [(key, v)] := by
  induction ms with
  | nil => rfl
  | cons m ms ih =>
    obtain ⟨k, w⟩ := m
    have hk : Text.compareBytes key k = .gt := Std.OrientedCmp.gt_of_lt (h (k, w) (by simp))
    rw [insertMember, hk, List.cons_append, ih fun m hm => h m (List.mem_cons_of_mem _ hm)]

/-- The tree of a value gives the value, inside a number of arrays and objects. -/
def DecodesBack (v : Json) : Prop :=
  ∀ depth, depth + v.depth ≤ maxNesting → decodeAny depth v.tree = .ok v

theorem decodeAll_trees {vs : List Json} (h : ∀ v ∈ vs, DecodesBack v) {depth : Nat}
    (hd : depth + itemsDepth vs ≤ maxNesting) : decodeAll depth (trees vs) = .ok vs := by
  induction vs with
  | nil => rw [trees, decodeAll]
  | cons v vs ih =>
    rw [itemsDepth] at hd
    rw [trees, decodeAll, h v (by simp) depth (by omega),
      ih (fun u hu => h u (List.mem_cons_of_mem v hu)) (by omega)]
    rfl

/-- Members that come in the order of their keys after others are put behind them. -/
theorem decodeAllMembers_trees (before : List (String × Json)) {ms : List (String × Json)}
    (h : ∀ m ∈ ms, DecodesBack m.2)
    (hs : (before ++ ms).Pairwise fun m m' => Text.compareBytes m.1 m'.1 = .lt) {depth : Nat}
    (hd : depth + membersDepth ms ≤ maxNesting) :
    decodeAllMembers depth before (memberTrees ms) = .ok (before ++ ms) := by
  induction ms generalizing before with
  | nil => rw [memberTrees, decodeAllMembers, List.append_nil]
  | cons m ms ih =>
    obtain ⟨k, v⟩ := m
    have hk : ∀ m ∈ before, Text.compareBytes m.1 k = .lt := fun m hm =>
      (List.pairwise_append.mp hs).2.2 m hm (k, v) (by simp)
    have hv : DecodesBack v := h (k, v) (by simp)
    have hi := ih (before ++ [(k, v)]) (fun m hm => h m (List.mem_cons_of_mem _ hm))
      (by rw [List.append_assoc]; exact hs) (by rw [membersDepth] at hd; omega)
    rw [membersDepth] at hd
    rw [memberTrees, decodeAllMembers, hv depth (by omega)]
    show decodeAllMembers depth (insertMember k v before) (memberTrees ms) = _
    rw [insertMember_last hk, hi, List.append_assoc]
    rfl

/-- A canonical value is decoded from its tree. -/
theorem IsCanonical.decodesBack {v : Json} (h : IsCanonical v) : DecodesBack v := by
  induction h with
  | null => intro depth hd; rw [tree, decodeAny]
  | bool b => intro depth hd; rw [tree, decodeAny]
  | integer h => intro depth hd; rw [tree, decodeAny, value?_ofInt h]
  | string s => intro depth hd; rw [tree, decodeAny]
  | array _ ih =>
    intro depth hd
    rw [Json.depth] at hd
    rw [tree, decodeAny, enter_of_lt (by omega)]
    show (do let vs ← decodeAll (depth + 1) _; _) = _
    rw [decodeAll_trees ih (by omega)]
    rfl
  | object hs _ ih =>
    intro depth hd
    rw [Json.depth] at hd
    rw [tree, decodeAny, enter_of_lt (by omega)]
    show (do let ms ← decodeAllMembers (depth + 1) [] _; _) = _
    rw [decodeAllMembers_trees [] ih hs (by omega)]
    rfl

variable {α : Type}

/-! ### Structures -/

/-- A list of values that are decoded from their trees. -/
theorem decodeList_tree {d : Decoder α} {f : α → Json} {as : List α} {depth : Nat}
    (hd : depth < maxNesting) (h : ∀ a ∈ as, d (depth + 1) (f a).tree = .ok a) :
    decodeList d depth (Json.array (as.map f)).tree = .ok as := by
  have hi : decodeItems d (depth + 1) true (trees (as.map f)) = .ok as := by
    induction as with
    | nil => rfl
    | cons a as ih =>
      rw [List.map_cons, trees, decodeItems, h a (by simp),
        ih fun b hb => h b (List.mem_cons_of_mem a hb)]
      rfl
  rw [tree, decodeList, enter_of_lt hd]
  exact hi

/-- A value other than `null` where there may be none. -/
theorem decodeOptional_of_ok {d : Decoder α} {depth : Nat} {t : Tree} {a : α} (ht : t ≠ .null)
    (h : d depth t = .ok a) : decodeOptional d depth t = .ok (some a) := by
  cases t <;> first | exact absurd rfl ht | simp [decodeOptional, h, Except.map]

/-- Fields with the trees of their values, where one is given. -/
abbrev Slots (α : Type) := List (Field α × Option Tree)

/-- The members of an object that gives these values. -/
def Slots.members : Slots α → List (Option String × Tree)
  | [] => []
  | (_, none) :: s => members s
  | (f, some t) :: s => (some f.name, t) :: members s

/-- A structure with these values, set one after another. -/
def Slots.set (depth : Nat) : Slots α → α → Decoded α
  | [], a => .ok a
  | (_, none) :: s, a => set depth s a
  | (f, some t) :: s, a => do
    let a ← f.set depth t a
    set depth s a

namespace Model

variable {m : Model α}

theorem field?_eq {before after : List (Field α)} {f : Field α} (hf : m.fields = before ++ f :: after)
    (hn : (m.fields.map Field.name).Nodup) : m.field? f.name = some f := by
  rw [hf, List.map_append, List.nodup_append] at hn
  rw [field?, hf, List.find?_append]
  have hb : before.find? (fun g => g.name = f.name) = none := by
    simp only [List.find?_eq_none, decide_eq_true_eq]
    intro g hg
    exact hn.2.2 g.name (List.mem_map_of_mem hg) f.name (by simp)
  rw [hb]
  simp

theorem finish_eq {seen : List String} (h : ∀ f ∈ m.fields, f.presence = .required → f.name ∈ seen)
    (a : α) : m.finish seen a = .ok a := by
  have hm : m.missing? seen = none := by
    simp only [missing?, Option.map_eq_none_iff, List.find?_eq_none]
    intro f hf
    simpa using h f hf
  rw [finish, hm]

/-- Members in the order of the fields set the fields in this order. -/
theorem decodeMembers_slots (before : List (Field α)) {s : Slots α} {seen : List String}
    (hf : m.fields = before ++ s.map Prod.fst) (hn : (m.fields.map Field.name).Nodup)
    (hseen : ∀ k ∈ seen, k ∈ before.map Field.name)
    (hb : ∀ f ∈ before, f.presence = .required → f.name ∈ seen)
    (hs : ∀ p ∈ s, p.1.presence = .required → p.2.isSome = true) (depth : Nat) (a : α) :
    m.decodeMembers depth true seen a s.members = s.set depth a := by
  induction s generalizing before seen a with
  | nil =>
    rw [List.map_nil, List.append_nil] at hf
    rw [Slots.members, decodeMembers, if_pos rfl, Slots.set, finish_eq (hf ▸ hb)]
  | cons p s ih =>
    obtain ⟨f, t⟩ := p
    have hf' : m.fields = (before ++ [f]) ++ s.map Prod.fst := by simpa using hf
    have hs' : ∀ p ∈ s, p.1.presence = .required → p.2.isSome = true :=
      fun p hp => hs p (List.mem_cons_of_mem _ hp)
    cases t with
    | none =>
      rw [Slots.members, Slots.set]
      refine ih (before ++ [f]) hf' (fun k hk => ?_) (fun g hg hr => ?_) hs' a
      · have := hseen k hk
        simp at this ⊢
        exact .inl this
      · rcases List.mem_append.mp hg with hg | hg
        · exact hb g hg hr
        · obtain rfl := List.mem_singleton.mp hg
          exact absurd (hs (g, none) (by simp) hr) (by simp)
    | some t =>
      have hk : f.name ∉ seen := by
        intro hk
        rw [hf, List.map_append, List.nodup_append] at hn
        exact hn.2.2 f.name (hseen _ hk) f.name (by simp) rfl
      have hfield := field?_eq (f := f) (by simpa using hf) hn
      rw [Slots.members, Slots.set, decodeMembers, hfield]
      simp only [List.contains_iff_mem, hk, if_false]
      refine congrArg _ (funext fun b => ?_)
      refine ih (before ++ [f]) hf' (fun k hk => ?_) (fun g hg hr => ?_) hs' b
      · rcases List.mem_cons.mp hk with rfl | hk
        · simp
        · have := hseen k hk
          simp at this ⊢
          exact .inl this
      · rcases List.mem_append.mp hg with hg | hg
        · exact List.mem_cons_of_mem _ (hb g hg hr)
        · obtain rfl := List.mem_singleton.mp hg
          exact List.mem_cons_self

/-- An object with all required fields of a structure, in the order of the fields, is decoded by
setting them. -/
theorem decode_slots {s : Slots α} (hf : m.fields = s.map Prod.fst)
    (hn : (m.fields.map Field.name).Nodup)
    (hs : ∀ p ∈ s, p.1.presence = .required → p.2.isSome = true) {depth : Nat}
    (hd : depth < maxNesting) :
    m.decode depth (.object s.members true) = s.set (depth + 1) m.blank := by
  rw [decode, enter_of_lt hd]
  exact decodeMembers_slots [] hf hn (by simp) (by simp) hs _ _

end Model

end SurfaceRegistry.Json
