import SurfaceRegistry.Proofs.Disk.Walk

/-!
# Trees that grow

A new node in a directory, and a new content of a file, leave all nodes in their places (`Node.grows_put`). So
a path that led to a node leads to the same place afterwards (`walk_present_of_grows`), and one that led to
room for a new node leads to the node that was put there (`walk_present_of_absent`).
-/

namespace SurfaceRegistry.Disk

namespace Node

/-! ### Entries -/

theorem lookup_changeEntry_self (name : String) (f : Option Node → Node) (entries : List (String × Node)) :
    (changeEntry name f entries).lookup name = some (f (entries.lookup name)) := by
  induction entries with
  | nil => simp [changeEntry]
  | cons e entries ih =>
    obtain ⟨k, n⟩ := e
    rw [changeEntry]
    split
    · rename_i h
      simp [h, List.lookup]
    · rename_i h
      have hk : (name == k) = false := by simpa using Ne.symm h
      rw [List.lookup, hk, List.lookup, hk]
      exact ih

theorem lookup_changeEntry_of_ne {name k : String} (h : k ≠ name) (f : Option Node → Node)
    (entries : List (String × Node)) : (changeEntry name f entries).lookup k = entries.lookup k := by
  induction entries with
  | nil => simp [changeEntry, h]
  | cons e entries ih =>
    obtain ⟨k', n⟩ := e
    rw [changeEntry]
    split
    · rename_i hk
      have hne : (k == k') = false := by simpa [hk] using h
      rw [List.lookup, hne, List.lookup, hne]
    · rw [List.lookup, List.lookup, ih]

/-! ### Places -/

/-- Only a directory has something below it. -/
theorem exists_directory_of_at?_append {root n : Node} {place : Place} {name : String} {rest : Place}
    (h : root.at? (place ++ name :: rest) = some n) :
    ∃ entries, root.at? place = some (.directory entries) := by
  rw [at?_append] at h
  obtain ⟨d, hd, h⟩ := Option.bind_eq_some_iff.mp h
  cases d with
  | directory entries => exact ⟨entries, hd⟩
  | file content => cases h
  | link target => cases h

theorem at?_put_of_some {root new n : Node} {place : Place} (h : root.at? place = some n) :
    (put new place root).at? place = some new := by
  induction place generalizing root with
  | nil => rfl
  | cons name rest ih =>
    obtain ⟨e, he, hrest⟩ := Option.bind_eq_some_iff.mp h
    cases root with
    | directory entries =>
      rw [put, at?, entry?, lookup_changeEntry_self]
      have hlookup : entries.lookup name = some e := he
      rw [hlookup]
      exact ih hrest
    | file content => cases he
    | link target => cases he

theorem at?_put_new {root new : Node} {place : Place} {entries : List (String × Node)}
    (h : root.at? place = some (.directory entries)) (name : String) :
    (put new (place ++ [name]) root).at? (place ++ [name]) = some new := by
  induction place generalizing root with
  | nil =>
    cases h
    rw [List.nil_append, put, at?, entry?, lookup_changeEntry_self]
    rfl
  | cons k rest ih =>
    obtain ⟨e, he, hrest⟩ := Option.bind_eq_some_iff.mp h
    cases root with
    | directory entries =>
      rw [List.cons_append, put, at?, entry?, lookup_changeEntry_self]
      have hlookup : entries.lookup k = some e := he
      rw [hlookup]
      exact ih hrest
    | file content => cases he
    | link target => cases he

/-- A place in a directory that is there. -/
def InDirectory (root : Node) (place : Place) : Prop :=
  ∃ d last entries, place = d ++ [last] ∧ root.at? d = some (.directory entries)

/-- What is new in a tree with a node put in a directory is at the place of that node or below it. -/
theorem InDirectory.exists_of_new {root new n : Node} {place p : Place} (h : root.InDirectory place)
    (hnone : root.at? p = none) (hn : (put new place root).at? p = some n) :
    ∃ rest, p = place ++ rest ∧ new.at? rest = some n := by
  obtain ⟨d, last, entries, rfl, hd⟩ := h
  induction d generalizing root p with
  | nil =>
    cases hd
    cases p with
    | nil => cases hnone
    | cons k more =>
      rw [List.nil_append, put, at?, entry?] at hn
      by_cases hk : k = last
      · subst hk
        rw [lookup_changeEntry_self] at hn
        exact ⟨more, rfl, hn⟩
      · rw [lookup_changeEntry_of_ne hk] at hn
        exact absurd (hnone.symm.trans hn) (by simp)
  | cons name r ih =>
    obtain ⟨e, he, hr⟩ := Option.bind_eq_some_iff.mp hd
    cases root with
    | file content => cases he
    | link target => cases he
    | directory top =>
      cases p with
      | nil => cases hnone
      | cons k more =>
        rw [List.cons_append, put, at?, entry?] at hn
        by_cases hk : k = name
        · subst hk
          have hlookup : top.lookup k = some e := he
          rw [lookup_changeEntry_self, hlookup] at hn
          have hmore : e.at? more = none := by
            rw [at?, he] at hnone
            exact hnone
          obtain ⟨rest, rfl, hrest⟩ := ih hmore hr hn
          exact ⟨rest, rfl, hrest⟩
        · rw [lookup_changeEntry_of_ne hk] at hn
          exact absurd (hnone.symm.trans hn) (by simp)

/-- If nothing is in that node, it is all that is new. -/
theorem InDirectory.eq_of_new {root new n : Node} {place p : Place} (h : root.InDirectory place)
    (hleaf : ∀ name, new.entry? name = none) (hnone : root.at? p = none)
    (hn : (put new place root).at? p = some n) : p = place ∧ n = new := by
  obtain ⟨rest, rfl, hrest⟩ := h.exists_of_new hnone hn
  cases rest with
  | nil => exact ⟨List.append_nil place, (Option.some.inj hrest).symm⟩
  | cons name rest =>
    rw [at?, hleaf] at hrest
    cases hrest

/-- What a walk can tell of a node. -/
inductive Shape where
  /-- A file. -/
  | file
  /-- A directory. -/
  | directory
  /-- A link to what a path leads to. -/
  | link (target : String)

/-- What a walk can tell of a node. -/
def shape : Node → Shape
  | file _ => .file
  | directory _ => .directory
  | link target => .link target

/-- What stays of a node when something is put elsewhere: the node, but a directory may get other entries. -/
def IsKept (n n' : Node) : Prop := n = n' ∨ n.shape = .directory ∧ n'.shape = .directory

theorem IsKept.shape_eq {n n' : Node} (h : n.IsKept n') : n'.shape = n.shape := by
  rcases h with rfl | ⟨h, h'⟩
  · rfl
  · rw [h, h']

/-- A node stays if nothing is put in its place or above it. -/
theorem isKept_put {root new n : Node} {place p : Place} (hn : root.at? p = some n)
    (hp : ¬ place <+: p) : ∃ n', (put new place root).at? p = some n' ∧ n.IsKept n' := by
  induction place generalizing root p with
  | nil => exact absurd (List.nil_prefix) hp
  | cons name rest ih =>
    cases root with
    | file content => exact ⟨n, hn, .inl rfl⟩
    | link target => exact ⟨n, hn, .inl rfl⟩
    | directory entries =>
      rw [put]
      cases p with
      | nil =>
        cases hn
        exact ⟨_, rfl, .inr ⟨rfl, rfl⟩⟩
      | cons k more =>
        obtain ⟨e, he, hn⟩ := Option.bind_eq_some_iff.mp hn
        by_cases hk : k = name
        · subst hk
          have hlookup : entries.lookup k = some e := he
          have hmore : ¬ rest <+: more := fun h => hp (List.cons_prefix_cons.mpr ⟨rfl, h⟩)
          obtain ⟨n', hn', hkept⟩ := ih hn hmore
          refine ⟨n', ?_, hkept⟩
          rw [at?, entry?, lookup_changeEntry_self, hlookup]
          exact hn'
        · refine ⟨n, ?_, .inl rfl⟩
          rw [at?, entry?, lookup_changeEntry_of_ne hk]
          exact Option.bind_eq_some_iff.mpr ⟨e, he, hn⟩

/-- All nodes of a tree are in another one, at the same places, with the same to be told of them. -/
def Grows (root root' : Node) : Prop :=
  ∀ p n, root.at? p = some n → ∃ n', root'.at? p = some n' ∧ n'.shape = n.shape

theorem Grows.refl (root : Node) : root.Grows root := fun _ n h => ⟨n, h, rfl⟩

theorem Grows.trans {r s t : Node} (h : r.Grows s) (h' : s.Grows t) : r.Grows t := by
  intro p n hn
  obtain ⟨n', hn', hshape⟩ := h p n hn
  obtain ⟨n'', hn'', hshape'⟩ := h' p n' hn'
  exact ⟨n'', hn'', hshape'.trans hshape⟩

theorem Grows.directory {root root' : Node} (h : root.Grows root') {p : Place} {entries : List (String × Node)}
    (hp : root.at? p = some (.directory entries)) : ∃ entries', root'.at? p = some (.directory entries') := by
  obtain ⟨n', hn', hshape⟩ := h p _ hp
  cases n' with
  | directory entries' => exact ⟨entries', hn'⟩
  | file content => cases hshape
  | link target => cases hshape

/-- A place at which a file may be put: there is nothing, or a file. -/
def HasRoom (root : Node) (place : Place) : Prop :=
  root.at? place = none ∨ ∃ content, root.at? place = some (.file content)

/-- Nothing stands above a place with room for a file but at that place itself. -/
theorem HasRoom.not_prefix {root n : Node} {place p : Place} (h : root.HasRoom place)
    (hp : root.at? p = some n) (hne : p ≠ place) : ¬ place <+: p := by
  rintro ⟨rest, rfl⟩
  cases rest with
  | nil => exact hne (List.append_nil place)
  | cons name rest =>
    obtain ⟨entries, hd⟩ := exists_directory_of_at?_append hp
    rcases h with h | ⟨content, h⟩
    · rw [h] at hd
      cases hd
    · rw [h] at hd
      cases hd

/-- What stands elsewhere stays. -/
theorem HasRoom.isKept_put {root n : Node} {place p : Place} (h : root.HasRoom place)
    (hp : root.at? p = some n) (hne : p ≠ place) (new : Node) :
    ∃ n', (put new place root).at? p = some n' ∧ n.IsKept n' :=
  Node.isKept_put hp (h.not_prefix hp hne)

theorem HasRoom.grows_put_file {root : Node} {place : Place} (h : root.HasRoom place) (content : ByteArray) :
    root.Grows (put (.file content) place root) := by
  intro p n hn
  by_cases hp : p = place
  · subst hp
    rcases h with h | ⟨old, h⟩
    · rw [h] at hn
      cases hn
    · rw [h] at hn
      cases hn
      exact ⟨_, at?_put_of_some h, rfl⟩
  · obtain ⟨n', hn', hkept⟩ := h.isKept_put hn hp _
    exact ⟨n', hn', hkept.shape_eq⟩

theorem grows_put_new {root : Node} {place : Place} (h : root.at? place = none) (new : Node) :
    root.Grows (put new place root) := by
  intro p n hn
  have hp : p ≠ place := by
    rintro rfl
    rw [h] at hn
    cases hn
  obtain ⟨n', hn', hkept⟩ := HasRoom.isKept_put (.inl h) hn hp new
  exact ⟨n', hn', hkept.shape_eq⟩

/-- A file elsewhere keeps its content. -/
theorem HasRoom.at?_put_file {root : Node} {place p : Place} (h : root.HasRoom place) {content : ByteArray}
    (hp : root.at? p = some (.file content)) (hne : p ≠ place) (new : Node) :
    (put new place root).at? p = some (.file content) := by
  obtain ⟨n', hn', hkept⟩ := h.isKept_put hp hne new
  rcases hkept with rfl | ⟨hshape, -⟩
  · exact hn'
  · cases hshape

end Node

/-! ### Walks name by name -/

variable {root root' : Node}

theorem walk_nil (root : Node) (followLast : Bool) (links : Nat) (here : Place) (w : Bool) :
    walk root followLast links here [] w = .ok (.present here w) := by
  rw [walk_eq, walkNames]

/-- A walk takes one name after another, and the names of a link in its place. -/
theorem walk_cons {followLast w : Bool} {links : Nat} {here : Place} {name : String} {rest : List String} :
    walk root followLast links here (name :: rest) w =
      match turnAt root here name with
      | .onFrom place => walk root followLast links place rest w
      | .file =>
        if rest.isEmpty then .ok (.present (here ++ [name]) w) else .error .notADirectory
      | .link target =>
        if rest.isEmpty && !followLast && !w then .ok (.present (here ++ [name]) false)
        else linkStep root followLast links here target rest w
      | .nothing => if rest.isEmpty then .ok (.absent here name w) else .error .notFound
      | .tooLong => .error .nameTooLong := by
  rw [walk_eq, walkNames_cons]
  cases turnAt root here name <;> simp only [walk_eq]

/-- What holds of every walk, if it holds of a walk when it holds of the walk that it goes on with. -/
theorem walk_induction {P : Nat → Place → List String → Bool → Prop}
    (nil : ∀ links here w, P links here [] w)
    (cons : ∀ links here name rest w,
      (∀ place, P links place rest w) →
        (∀ fewer, links = fewer + 1 → ∀ place names v, P fewer place names v) →
        P links here (name :: rest) w)
    (links : Nat) (here : Place) (names : List String) (w : Bool) : P links here names w := by
  induction links using Nat.strongRecOn generalizing here names w with
  | ind links ih =>
    induction names generalizing here with
    | nil => exact nil links here w
    | cons name rest ihn =>
      exact cons links here name rest w ihn fun fewer h place names v => ih fewer (by omega) place names v

/-- Where there is something, a walk goes on as before in a tree that has grown. -/
theorem turnAt_of_grows (h : root.Grows root') {here : Place} {name : String}
    (ht : turnAt root here name ≠ .nothing) : turnAt root' here name = turnAt root here name := by
  unfold turnAt at ht ⊢
  split_ifs at ht ⊢
  · rfl
  · rfl
  · rfl
  · cases hn : root.at? (here ++ [name]) with
    | none => simp [hn] at ht
    | some n =>
      obtain ⟨n', hn', hshape⟩ := h _ _ hn
      rw [hn']
      cases n <;> cases n' <;> cases hshape <;> rfl

/-- Where there was nothing, a walk goes on as what is there now says. -/
theorem turnAt_of_nothing {here : Place} {name : String} (ht : turnAt root here name = .nothing)
    (root' : Node) :
    turnAt root' here name =
      match root'.at? (here ++ [name]) with
      | none => .nothing
      | some (.directory _) => .onFrom (here ++ [name])
      | some (.file _) => .file
      | some (.link target) => .link target := by
  unfold turnAt at ht ⊢
  split_ifs at ht ⊢
  rfl

/-- A directory leads on to directories only. -/
theorem directory_of_turnAt {here place : Place} {name : String} {entries : List (String × Node)}
    (h : root.at? here = some (.directory entries)) (ht : turnAt root here name = .onFrom place) :
    ∃ entries, root.at? place = some (.directory entries) := by
  unfold turnAt at ht
  split_ifs at ht
  · cases ht
    exact ⟨entries, h⟩
  · cases ht
    rcases List.eq_nil_or_concat here with rfl | ⟨before, last, rfl⟩
    · exact ⟨entries, h⟩
    · rw [List.concat_eq_append] at h ⊢
      rw [List.dropLast_concat]
      exact Node.exists_directory_of_at?_append h
  · split at ht
    · cases ht
    · rename_i hd
      cases ht
      exact ⟨_, hd⟩
    · cases ht
    · cases ht

/-! ### Walks in a tree that has grown -/

/-- A walk that led to a node leads to the same place in a tree that has grown. -/
theorem walk_present_of_grows (hg : root.Grows root') {followLast v : Bool} {p : Place} (links : Nat)
    (here : Place) (names : List String) (w : Bool)
    (h : walk root followLast links here names w = .ok (.present p v)) :
    walk root' followLast links here names w = .ok (.present p v) := by
  induction links, here, names, w using walk_induction with
  | nil links here w =>
    rw [walk_nil] at h ⊢
    exact h
  | cons links here name rest w ih ihlink =>
    rw [walk_cons] at h ⊢
    have ht : turnAt root here name ≠ .nothing := by
      intro ht
      rw [ht] at h
      cases rest <;> cases h
    rw [turnAt_of_grows hg ht]
    cases hturn : turnAt root here name with
    | onFrom place =>
      rw [hturn] at h
      exact ih place h
    | file =>
      rw [hturn] at h
      exact h
    | link target =>
      rw [hturn] at h
      simp only at h ⊢
      split_ifs at h ⊢ with hlast
      · exact h
      · cases links with
        | zero => exact h
        | succ links =>
          simp only [linkStep] at h ⊢
          split_ifs at h ⊢
          all_goals exact ihlink links rfl _ _ _ h
    | nothing => exact absurd hturn ht
    | tooLong =>
      rw [hturn] at h
      exact h

/-- Where links are followed to a node, there is something whether or not the last one is followed and a directory is
asked for; if it is followed, then at the same place. -/
theorem exists_walk_present {p : Place} {v : Bool} (links : Nat) (here : Place) (names : List String)
    (w : Bool) (h : walk root true links here names w = .ok (.present p v)) (followLast w' : Bool) :
    ∃ p' v', walk root followLast links here names w' = .ok (.present p' v') ∧ (followLast = true → p' = p) := by
  induction links, here, names, w using walk_induction generalizing w' with
  | nil links here w =>
    rw [walk_nil] at h
    cases h
    exact ⟨p, w', walk_nil root followLast links p w', fun _ => rfl⟩
  | cons links here name rest w ih ihlink =>
    rw [walk_cons] at h ⊢
    cases hturn : turnAt root here name with
    | onFrom place =>
      rw [hturn] at h
      exact ih place h w'
    | file =>
      rw [hturn] at h
      cases rest with
      | nil =>
        cases h
        exact ⟨_, w', rfl, fun _ => rfl⟩
      | cons next rest => cases h
    | link target =>
      rw [hturn] at h
      simp only [Bool.not_true, Bool.and_false, Bool.false_and, Bool.false_eq_true, if_false] at h
      simp only
      split_ifs with hlast
      · exact ⟨_, _, rfl, fun hfollow => by simp [hfollow] at hlast⟩
      · cases links with
        | zero => cases h
        | succ links =>
          simp only [linkStep] at h ⊢
          split_ifs at h ⊢
          all_goals exact ihlink links rfl _ _ _ h _
    | nothing =>
      rw [hturn] at h
      cases rest <;> cases h
    | tooLong =>
      rw [hturn] at h
      cases h

/-- A walk that led to room for a node leads to the file or directory that is put there, whether or not a
directory is asked for. -/
theorem walk_present_of_absent (hg : root.Grows root') {followLast v : Bool} {d : Place} {last : String}
    {n : Node} (hn : root'.at? (d ++ [last]) = some n) (hlink : ∀ target, n ≠ .link target) (links : Nat)
    (here : Place) (names : List String) (w : Bool)
    (h : walk root followLast links here names w = .ok (.absent d last v)) (w' : Bool) :
    ∃ v', walk root' true links here names w' = .ok (.present (d ++ [last]) v') ∧ (w' = w → v' = v) := by
  induction links, here, names, w using walk_induction generalizing w' with
  | nil links here w =>
    rw [walk_nil] at h
    cases h
  | cons links here name rest w ih ihlink =>
    rw [walk_cons] at h ⊢
    cases hturn : turnAt root here name with
    | onFrom place =>
      rw [hturn] at h
      rw [turnAt_of_grows hg (by simp [hturn]), hturn]
      exact ih place h w'
    | file =>
      rw [hturn] at h
      cases rest <;> cases h
    | link target =>
      rw [hturn] at h
      rw [turnAt_of_grows hg (by simp [hturn]), hturn]
      simp only [Bool.not_true, Bool.and_false, Bool.false_and, Bool.false_eq_true, if_false]
      simp only at h
      split_ifs at h with hlast
      · cases h
      · cases links with
        | zero => cases h
        | succ links =>
          simp only [linkStep] at h ⊢
          split_ifs at h ⊢
          all_goals
            obtain ⟨v', hv', heq⟩ := ihlink links rfl _ _ _ h (w' || (rest.isEmpty && endsWithSlash target))
            exact ⟨v', hv', fun hw => heq (by rw [hw])⟩
    | nothing =>
      rw [hturn] at h
      cases rest with
      | cons next rest => cases h
      | nil =>
        cases h
        rw [turnAt_of_nothing hturn root', hn]
        cases n with
        | directory entries => exact ⟨w', walk_nil _ _ _ _ _, id⟩
        | file content => exact ⟨w', rfl, id⟩
        | link target => exact absurd rfl (hlink target)
    | tooLong =>
      rw [hturn] at h
      cases h

/-- Room for a node is in a directory. -/
theorem directory_of_walk_absent {followLast v : Bool} {d : Place} {last : String} {top : List (String × Node)}
    (htop : root.at? [] = some (.directory top)) (links : Nat) (here : Place) (names : List String) (w : Bool)
    (hhere : ∃ entries, root.at? here = some (.directory entries))
    (h : walk root followLast links here names w = .ok (.absent d last v)) :
    (∃ entries, root.at? d = some (.directory entries)) ∧ root.at? (d ++ [last]) = none := by
  induction links, here, names, w using walk_induction with
  | nil links here w =>
    rw [walk_nil] at h
    cases h
  | cons links here name rest w ih ihlink =>
    rw [walk_cons] at h
    obtain ⟨entries, hentries⟩ := hhere
    cases hturn : turnAt root here name with
    | onFrom place =>
      rw [hturn] at h
      exact ih place (directory_of_turnAt hentries hturn) h
    | file =>
      rw [hturn] at h
      cases rest <;> cases h
    | link target =>
      rw [hturn] at h
      simp only at h
      split_ifs at h with hlast
      · cases h
      · cases links with
        | zero => cases h
        | succ links =>
          simp only [linkStep] at h
          split_ifs at h
          · exact ihlink links rfl _ _ _ ⟨top, htop⟩ h
          · exact ihlink links rfl _ _ _ ⟨entries, hentries⟩ h
    | nothing =>
      rw [hturn] at h
      cases rest with
      | cons next rest => cases h
      | nil =>
        cases h
        exact ⟨⟨entries, hentries⟩, tells_of_turnAt hturn⟩
    | tooLong =>
      rw [hturn] at h
      cases h

end SurfaceRegistry.Disk
