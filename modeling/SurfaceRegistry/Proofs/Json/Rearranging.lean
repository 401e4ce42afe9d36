import SurfaceRegistry.Proofs.Json.Canonical
import SurfaceRegistry.Proofs.Json.Grammar

/-!
# Rearranging objects

What a structure is decoded to does not depend on the order of the members of its object, nor on members that
are no fields (`Model.respects_decode`). The decoder goes through the members once, and what it does with the
known ones is to set their fields in turn (`Model.decodeMembers_eq_ok_iff`); fields that commute may be set in
any order (`Slots.set_perm`), and a member that is no field is passed over if the document does not break in
it.
-/

namespace SurfaceRegistry.Json

open SurfaceRegistry.Json.Tree

variable {α β : Type}

/-! ### Trees that are decoded alike -/

/-- A decoder gives for a tree without broken places what it gives for a related one. -/
def Respects (d : Decoder α) (depth : Nat) (R : Tree → Tree → Prop) : Prop :=
  ∀ ⦃t t' : Tree⦄ ⦃a : α⦄, t'.isWhole = true → R t t' → d depth t = .ok a → d depth t' = .ok a

/-- The same tree, or arrays with items that are related one by one. -/
inductive ItemsRelated (R : Tree → Tree → Prop) : Tree → Tree → Prop where
  | same (t : Tree) : ItemsRelated R t t
  | array {ts ts' : List Tree} : List.Forall₂ R ts ts' → ItemsRelated R (.array ts true) (.array ts' true)

theorem decodeItems_of_related {d : Decoder α} {depth : Nat} {R : Tree → Tree → Prop}
    (hd : Respects d depth R) {ts ts' : List Tree} (h : List.Forall₂ R ts ts')
    (hwhole : ∀ t ∈ ts', t.isWhole = true) {as : List α} (has : decodeItems d depth true ts = .ok as) :
    decodeItems d depth true ts' = .ok as := by
  induction h generalizing as with
  | nil => exact has
  | cons hR _ ih =>
    obtain ⟨a, ha, has⟩ := exists_of_bind_eq_ok has
    obtain ⟨as, hrest, has⟩ := exists_of_bind_eq_ok has
    obtain ⟨hw, hws⟩ := List.forall_mem_cons.mp hwhole
    rw [decodeItems, hd hw hR ha, ih hws hrest]
    exact has

theorem respects_decodeList {d : Decoder α} {depth : Nat} {R : Tree → Tree → Prop}
    (hd : Respects d (depth + 1) R) : Respects (decodeList d) depth (ItemsRelated R) := by
  intro t t' as hwhole h has
  cases h with
  | same => exact has
  | array h =>
    obtain ⟨inner, hinner, has⟩ := exists_of_bind_eq_ok has
    obtain ⟨rfl, -⟩ := enter_eq_ok hinner
    rw [Tree.isWhole, Bool.true_and, allWhole_eq_true_iff] at hwhole
    rw [decodeList, hinner]
    exact decodeItems_of_related hd h hwhole has

/-- A member with the same key and a value that is related as the key tells. -/
structure MemberRelated (R : String → Tree → Tree → Prop) (p q : Option String × Tree) : Prop where
  key : p.1 = q.1
  value : ∀ k, p.1 = some k → R k p.2 q.2

/-! ### Fields -/

/-- Two fields of a structure may be set in either order. -/
def Field.Commute (f g : Field α) : Prop :=
  ∀ depth t u a c,
    (do let b ← f.set depth t a; g.set depth u b) = .ok c ↔
      (do let b ← g.set depth u a; f.set depth t b) = .ok c

theorem Field.Commute.symm {f g : Field α} (h : f.Commute g) : g.Commute f :=
  fun depth t u a c => (h depth u t a c).symm

instance : Std.Symm (@Field.Commute α) := ⟨fun _ _ h => h.symm⟩

theorem Field.set_of_eq_ok_iff {d : Decoder β} {set : β → α → α} {name : String} {presence : Presence}
    {depth : Nat} {t : Tree} {a b : α} :
    (Field.of name presence d set).set depth t a = .ok b ↔ ∃ v, d depth t = .ok v ∧ set v a = b := by
  cases h : d depth t <;> simp [Field.of, h, Except.map]

/-- Fields whose values change the structure independently of each other may be set in either order. -/
theorem Field.commute_of {γ : Type} {d : Decoder β} {e : Decoder γ} {set : β → α → α}
    {put : γ → α → α} (h : ∀ v w a, put w (set v a) = set v (put w a)) (name name' : String)
    (presence presence' : Presence) :
    (Field.of name presence d set).Commute (Field.of name' presence' e put) := by
  intro depth t u a c
  cases hv : d depth t <;> cases hw : e depth u <;>
    simp [Field.of, hv, hw, Except.map, bind, Except.bind, h]

/-- A field takes from a tree without broken places what it takes from a related one. -/
def Field.Respects (f : Field α) (depth : Nat) (R : Tree → Tree → Prop) : Prop :=
  ∀ ⦃t t' : Tree⦄ ⦃a b : α⦄, t'.isWhole = true → R t t' → f.set depth t a = .ok b →
    f.set depth t' a = .ok b

theorem Field.respects_of {d : Decoder β} {depth : Nat} {R : Tree → Tree → Prop}
    (hd : Json.Respects d depth R) (name : String) (presence : Presence) (set : β → α → α) :
    (Field.of name presence d set).Respects depth R := by
  intro t t' a b hwhole hR hb
  obtain ⟨v, hv, rfl⟩ := set_of_eq_ok_iff.mp hb
  exact set_of_eq_ok_iff.mpr ⟨v, hd hwhole hR hv, rfl⟩

theorem Field.respects_eq (f : Field α) (depth : Nat) : f.Respects depth Eq := by
  rintro t _ a b - rfl h
  exact h

namespace Slots

/-- Values that are given, set in any order. -/
theorem set_perm {s s' : Slots α} (h : s.Perm s') (hs : s.Pairwise fun p q => p.1.Commute q.1)
    {depth : Nat} {a b : α} (hb : s.set depth a = .ok b) : s'.set depth a = .ok b := by
  induction h generalizing a with
  | nil => exact hb
  | cons p _ ih =>
    obtain ⟨f, t⟩ := p
    cases t with
    | none => exact ih hs.of_cons hb
    | some t =>
      obtain ⟨c, hc, hb⟩ := exists_of_bind_eq_ok hb
      rw [set, hc]
      exact ih hs.of_cons hb
  | swap p q s =>
    obtain ⟨f, t⟩ := p
    obtain ⟨g, u⟩ := q
    cases t with
    | none => cases u <;> exact hb
    | some t =>
      cases u with
      | none => exact hb
      | some u =>
        have hgf : g.Commute f := (List.pairwise_cons.mp hs).1 (f, some t) List.mem_cons_self
        obtain ⟨c, hc, hb⟩ := exists_of_bind_eq_ok hb
        obtain ⟨e, he, hb⟩ := exists_of_bind_eq_ok hb
        have hboth : (do let b ← g.set depth u a; f.set depth t b) = .ok e := by
          rw [hc]
          exact he
        obtain ⟨c', hc', he'⟩ := exists_of_bind_eq_ok ((hgf depth u t a e).mp hboth)
        rw [set, hc']
        show (do let b ← g.set depth u c'; set depth s b) = _
        rw [he']
        exact hb
  | trans h h' ih ih' =>
    exact ih' ((h.pairwise_iff fun h => h.symm).mp hs) (ih hs hb)

end Slots

namespace Model

variable {m : Model α}

/-- The members of an object that are fields, with their values. -/
def known (m : Model α) (ms : List (Option String × Tree)) : Slots α :=
  ms.filterMap fun p => (p.1.bind m.field?).map fun f => (f, some p.2)

theorem known_cons_of_none (key : Option String) (h : key.bind m.field? = none) (t : Tree)
    (ms : List (Option String × Tree)) : m.known ((key, t) :: ms) = m.known ms :=
  List.filterMap_cons_none (by rw [h]; rfl)

theorem known_cons_of_some (key : Option String) {f : Field α} (h : key.bind m.field? = some f) (t : Tree)
    (ms : List (Option String × Tree)) : m.known ((key, t) :: ms) = (f, some t) :: m.known ms :=
  List.filterMap_cons_some (by rw [h]; rfl)

/-- The names of the fields that are members of an object. -/
def knownNames (m : Model α) (ms : List (Option String × Tree)) : List String :=
  (m.known ms).map fun p => p.1.name

/-- An object has members for the fields of a structure where some are seen already. -/
structure Fits (m : Model α) (seen : List String) (ms : List (Option String × Tree)) : Prop where
  named : ∀ p ∈ ms, ∃ k, p.1 = some k ∧ (m.field? k = none → p.2.isWhole = true)
  once : (m.knownNames ms).Nodup
  fresh : ∀ k ∈ m.knownNames ms, k ∉ seen
  complete : ∀ f ∈ m.fields, f.presence = .required → f.name ∈ seen ∨ f.name ∈ m.knownNames ms

theorem name_of_field? {k : String} {f : Field α} (h : m.field? k = some f) : f.name = k := by
  simpa using List.find?_some h

theorem finish_eq_ok_iff {seen : List String} {a b : α} :
    m.finish seen a = .ok b ↔ (∀ f ∈ m.fields, f.presence = .required → f.name ∈ seen) ∧ a = b := by
  constructor
  · intro h
    unfold finish at h
    split at h
    · rename_i hm
      cases h
      simp only [missing?, Option.map_eq_none_iff, List.find?_eq_none] at hm
      exact ⟨fun f hf hr => by simpa [hr] using hm f hf, rfl⟩
    · cases h
  · rintro ⟨h, rfl⟩
    exact finish_eq h a

theorem fits_nil_iff {seen : List String} :
    m.Fits seen [] ↔ ∀ f ∈ m.fields, f.presence = .required → f.name ∈ seen := by
  constructor
  · intro h f hf hr
    simpa [knownNames, known] using h.complete f hf hr
  · intro h
    exact ⟨by simp, by simp [knownNames, known], by simp [knownNames, known],
      fun f hf hr => .inl (h f hf hr)⟩

theorem fits_unknown_iff {seen : List String} {k : String} {t : Tree} {ms : List (Option String × Tree)}
    (hk : m.field? k = none) :
    m.Fits seen ((some k, t) :: ms) ↔ t.isWhole = true ∧ m.Fits seen ms := by
  have hnames : m.knownNames ((some k, t) :: ms) = m.knownNames ms := by
    rw [knownNames, known_cons_of_none (some k) hk]
    rfl
  constructor
  · rintro ⟨hnamed, honce, hfresh, hcomplete⟩
    rw [hnames] at honce hfresh hcomplete
    obtain ⟨⟨k', hk', hwhole⟩, hnamed⟩ := List.forall_mem_cons.mp hnamed
    cases hk'
    exact ⟨hwhole hk, hnamed, honce, hfresh, hcomplete⟩
  · rintro ⟨hwhole, hnamed, honce, hfresh, hcomplete⟩
    rw [← hnames] at honce hfresh hcomplete
    exact ⟨List.forall_mem_cons.mpr ⟨⟨k, rfl, fun _ => hwhole⟩, hnamed⟩, honce, hfresh, hcomplete⟩

theorem fits_known_iff {seen : List String} {k : String} {f : Field α} {t : Tree}
    {ms : List (Option String × Tree)} (hk : m.field? k = some f) :
    m.Fits seen ((some k, t) :: ms) ↔ k ∉ seen ∧ m.Fits (k :: seen) ms := by
  have hnames : m.knownNames ((some k, t) :: ms) = k :: m.knownNames ms := by
    rw [knownNames, known_cons_of_some (some k) hk, List.map_cons, name_of_field? hk]
    rfl
  constructor
  · rintro ⟨hnamed, honce, hfresh, hcomplete⟩
    rw [hnames] at honce hfresh hcomplete
    obtain ⟨hne, honce⟩ := List.nodup_cons.mp honce
    obtain ⟨hseen, hfresh⟩ := List.forall_mem_cons.mp hfresh
    refine ⟨hseen, (List.forall_mem_cons.mp hnamed).2, honce, fun n hn hmem => ?_, fun g hg hr => ?_⟩
    · rcases List.mem_cons.mp hmem with rfl | hmem
      · exact hne hn
      · exact hfresh n hn hmem
    · have := hcomplete g hg hr
      rw [List.mem_cons] at this ⊢
      tauto
  · rintro ⟨hseen, hnamed, honce, hfresh, hcomplete⟩
    refine ⟨List.forall_mem_cons.mpr ⟨⟨k, rfl, by simp [hk]⟩, hnamed⟩, ?_, ?_, fun g hg hr => ?_⟩
    · rw [hnames]
      exact List.nodup_cons.mpr ⟨fun hn => hfresh k hn List.mem_cons_self, honce⟩
    · rw [hnames]
      exact List.forall_mem_cons.mpr ⟨hseen, fun n hn hmem => hfresh n hn (List.mem_cons_of_mem k hmem)⟩
    · have := hcomplete g hg hr
      rw [hnames]
      rw [List.mem_cons] at this ⊢
      tauto

/-- The members of an object that does not break give a structure if and only if they fit, and then by
setting the fields that are among them. -/
theorem decodeMembers_eq_ok_iff {depth : Nat} {seen : List String} {a b : α}
    {ms : List (Option String × Tree)} :
    m.decodeMembers depth true seen a ms = .ok b ↔ m.Fits seen ms ∧ (m.known ms).set depth a = .ok b := by
  induction ms generalizing seen a with
  | nil =>
    rw [decodeMembers, if_pos rfl, finish_eq_ok_iff, fits_nil_iff]
    simp [known, Slots.set]
  | cons p ms ih =>
    obtain ⟨key, t⟩ := p
    cases key with
    | none =>
      rw [decodeMembers]
      refine iff_of_false (by simp) fun h => ?_
      obtain ⟨k, hk, -⟩ := h.1.named (none, t) List.mem_cons_self
      cases hk
    | some k =>
      rw [decodeMembers]
      cases hk : m.field? k with
      | none =>
        rw [fits_unknown_iff hk, known_cons_of_none (some k) hk]
        cases hwhole : t.isWhole with
        | true => simp [ih]
        | false => simp
      | some f =>
        rw [fits_known_iff hk, known_cons_of_some (some k) hk, Slots.set]
        by_cases hseen : k ∈ seen
        · simp [hseen]
        · cases hset : f.set depth t a with
          | error e => simp [hseen, hset, bind, Except.bind]
          | ok c =>
            simp only [List.contains_iff_mem, hseen, if_false, hset, not_false_iff, true_and, bind, Except.bind]
            exact ih

theorem mem_fields_of_mem_known {ms : List (Option String × Tree)} {p : Field α × Option Tree}
    (h : p ∈ m.known ms) : p.1 ∈ m.fields := by
  obtain ⟨q, -, hq⟩ := List.mem_filterMap.mp h
  obtain ⟨f, hf, rfl⟩ := Option.map_eq_some_iff.mp hq
  obtain ⟨k, -, hk⟩ := Option.bind_eq_some_iff.mp hf
  exact List.mem_of_find?_eq_some hk

theorem commute_known (hc : m.fields.Pairwise Field.Commute) {ms : List (Option String × Tree)}
    (h : (m.knownNames ms).Nodup) : (m.known ms).Pairwise fun p q => p.1.Commute q.1 := by
  have hne : (m.known ms).Pairwise fun p q => p.1.name ≠ q.1.name := List.pairwise_map.mp h
  refine hne.imp_of_mem fun hp hq hne => ?_
  exact hc.forall (mem_fields_of_mem_known hp) (mem_fields_of_mem_known hq) fun h =>
    hne (congrArg Field.name h)

/-! ### Rearranged objects -/

/-- The same tree, or the same object but for three things: values of members that are related as their names
tell, members whose names are none of the fields, and the order of the members. -/
inductive Rearranged (m : Model α) (R : String → Tree → Tree → Prop) : Tree → Tree → Prop where
  | same (t : Tree) : Rearranged m R t t
  | object {ms vs more ms' : List (Option String × Tree)} :
      List.Forall₂ (MemberRelated R) ms vs →
        (∀ p ∈ more, ∃ k, p.1 = some k ∧ k ∉ m.fields.map Field.name) →
        ms'.Perm (vs ++ more) →
        Rearranged m R (.object ms true) (.object ms' true)

/-- Members in the opposite order, after one that is no field. -/
theorem Rearranged.reversed {R : String → Tree → Tree → Prop} {ms vs : List (Option String × Tree)}
    (h : List.Forall₂ (MemberRelated R) ms vs) {k : String} (hk : k ∉ m.fields.map Field.name) (t : Tree) :
    m.Rearranged R (.object ms true) (.object ((some k, t) :: vs.reverse) true) := by
  have hmore : ∀ p ∈ [(some k, t)], ∃ k, p.1 = some k ∧ k ∉ m.fields.map Field.name := by
    intro p hp
    obtain rfl := List.mem_singleton.mp hp
    exact ⟨k, rfl, hk⟩
  exact .object h hmore (((List.reverse_perm vs).cons _).trans (List.perm_append_singleton _ _).symm)

theorem known_eq_nil {ms : List (Option String × Tree)}
    (h : ∀ p ∈ ms, ∃ k, p.1 = some k ∧ k ∉ m.fields.map Field.name) : m.known ms = [] := by
  refine List.filterMap_eq_nil_iff.mpr fun p hp => ?_
  obtain ⟨k, hk, hnot⟩ := h p hp
  have hnone : m.field? k = none := by
    refine List.find?_eq_none.mpr fun f hf => ?_
    simpa using fun hfk => hnot (List.mem_map.mpr ⟨f, hf, hfk⟩)
  rw [hk, Option.bind_some, hnone]
  rfl

variable {R : String → Tree → Tree → Prop} {ms vs : List (Option String × Tree)}

theorem knownNames_of_related (h : List.Forall₂ (MemberRelated R) ms vs) :
    m.knownNames vs = m.knownNames ms := by
  induction h with
  | nil => rfl
  | @cons p q ms vs hpq _ ih =>
    obtain ⟨key, t⟩ := p
    obtain ⟨key', u⟩ := q
    obtain rfl : key = key' := hpq.key
    rw [knownNames, knownNames] at ih ⊢
    cases hk : key.bind m.field? with
    | none => rw [known_cons_of_none key hk, known_cons_of_none key hk, ih]
    | some f => rw [known_cons_of_some key hk, known_cons_of_some key hk, List.map_cons, List.map_cons, ih]

theorem exists_related (h : List.Forall₂ (MemberRelated R) ms vs)
    {q : Option String × Tree} (hq : q ∈ vs) : ∃ p ∈ ms, p.1 = q.1 := by
  induction h with
  | nil => cases hq
  | cons hpq _ ih =>
    rcases List.mem_cons.mp hq with rfl | hq
    · exact ⟨_, List.mem_cons_self, hpq.key⟩
    · obtain ⟨p, hp, heq⟩ := ih hq
      exact ⟨p, List.mem_cons_of_mem _ hp, heq⟩

/-- Related values of the members set the fields alike. -/
theorem set_known_of_related {depth : Nat} (hR : ∀ f ∈ m.fields, f.Respects depth (R f.name))
    (h : List.Forall₂ (MemberRelated R) ms vs)
    (hwhole : ∀ q ∈ vs, q.2.isWhole = true) {a b : α} (hb : (m.known ms).set depth a = .ok b) :
    (m.known vs).set depth a = .ok b := by
  induction h generalizing a with
  | nil => exact hb
  | @cons p q ms vs hpq _ ih =>
    obtain ⟨key, t⟩ := p
    obtain ⟨key', u⟩ := q
    obtain rfl : key = key' := hpq.key
    obtain ⟨hu, hvs⟩ := List.forall_mem_cons.mp hwhole
    cases hk : key.bind m.field? with
    | none =>
      rw [known_cons_of_none key hk] at hb ⊢
      exact ih hvs hb
    | some f =>
      rw [known_cons_of_some key hk] at hb ⊢
      obtain ⟨k, rfl, hf⟩ := Option.bind_eq_some_iff.mp hk
      obtain rfl := name_of_field? hf
      obtain ⟨c, hc, hb⟩ := exists_of_bind_eq_ok hb
      have hset := hR f (List.mem_of_find?_eq_some hf) hu (hpq.value _ rfl) hc
      rw [Slots.set, hset]
      exact ih hvs hb

/-- A structure is decoded alike from an object and from a rearranged one, if its fields may be set in any order
and take the same from related values. -/
theorem respects_decode {depth : Nat} (hc : m.fields.Pairwise Field.Commute)
    (hR : ∀ f ∈ m.fields, f.Respects (depth + 1) (R f.name)) :
    Respects m.decode depth (m.Rearranged R) := by
  intro t t' a hwhole h ha
  cases h with
  | same => exact ha
  | @object ms vs more ms' hrelated hmore hperm =>
    obtain ⟨inner, hinner, ha⟩ := exists_of_bind_eq_ok ha
    obtain ⟨rfl, -⟩ := enter_eq_ok hinner
    obtain ⟨hfits, hset⟩ := decodeMembers_eq_ok_iff.mp ha
    rw [Tree.isWhole, Bool.true_and, allMembersWhole_eq_true_iff] at hwhole
    have hvs : ∀ q ∈ vs, q.2.isWhole = true := fun q hq =>
      hwhole q (hperm.mem_iff.mpr (List.mem_append_left more hq))
    have hknown : (m.known vs).Perm (m.known ms') := by
      have hp := hperm.filterMap fun p => (p.1.bind m.field?).map fun f => (f, some p.2)
      rw [List.filterMap_append] at hp
      have hnil := known_eq_nil hmore
      rw [known] at hnil
      rw [hnil, List.append_nil] at hp
      exact hp.symm
    have hnames : (m.knownNames ms).Perm (m.knownNames ms') := by
      rw [← knownNames_of_related hrelated]
      exact hknown.map _
    have hfits' : m.Fits [] ms' := by
      refine ⟨fun p hp => ?_, hnames.nodup_iff.mp hfits.once, by simp, fun f hf hr => ?_⟩
      · rcases List.mem_append.mp (hperm.mem_iff.mp hp) with hp' | hp'
        · obtain ⟨q, hq, hqp⟩ := exists_related hrelated hp'
          obtain ⟨k, hk, -⟩ := hfits.named q hq
          exact ⟨k, hqp ▸ hk, fun _ => hwhole p hp⟩
        · obtain ⟨k, hk, -⟩ := hmore p hp'
          exact ⟨k, hk, fun _ => hwhole p hp⟩
      · exact (hfits.complete f hf hr).imp id hnames.mem_iff.mp
    have honce : (m.knownNames vs).Nodup := by
      rw [knownNames_of_related hrelated]
      exact hfits.once
    rw [decode, hinner]
    exact decodeMembers_eq_ok_iff.mpr
      ⟨hfits', Slots.set_perm hknown (commute_known hc honce) (set_known_of_related hR hrelated hvs hset)⟩

/-- A structure is decoded alike from an object and from one with other members that are no fields, and in another
order. -/
theorem respects_decode_eq (hc : m.fields.Pairwise Field.Commute) (depth : Nat) :
    Respects m.decode depth (m.Rearranged fun _ => Eq) :=
  respects_decode hc fun f _ => f.respects_eq (depth + 1)

end Model

end SurfaceRegistry.Json
