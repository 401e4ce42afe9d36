import SurfaceRegistry.Disk.Machine
import SurfaceRegistry.Proofs.RepoPath

/-!
# Walks that stay below a directory

A walk along the names of a path and more names goes on from where the first names lead
(`walk_append`), with fewer links allowed if there were some on the way. From there, names that do not
climb lead through a tree without links as they would if the tree were all there is
(`walkNames_below`): what is outside of it cannot be seen. So what a machine finds at a confined path of a
directory is a matter of the tree of this directory (`Machine.found?_join`).
-/

namespace SurfaceRegistry.Disk

open SurfaceRegistry.RepoPath (climbsFrom descends)

/-! ### Trees -/

namespace Node

theorem at?_append (n : Node) (p q : Place) : n.at? (p ++ q) = (n.at? p).bind (at? q) := by
  induction p generalizing n with
  | nil => rfl
  | cons name p ih =>
    rw [List.cons_append, at?, at?, Option.bind_assoc]
    exact congrArg _ (funext fun e => ih e)

/-- A tree in which no place has a link. -/
def LinkFree (n : Node) : Prop :=
  ∀ place target, n.at? place ≠ some (.link target)

theorem linkFree_file (content : ByteArray) : (file content).LinkFree := by
  intro place target h
  cases place with
  | nil => cases h
  | cons name rest => cases h

theorem linkFree_directory {entries : List (String × Node)} (h : ∀ e ∈ entries, e.2.LinkFree) :
    (directory entries).LinkFree := by
  intro place target ht
  cases place with
  | nil => cases ht
  | cons name rest =>
    obtain ⟨n, hn, ht⟩ := Option.bind_eq_some_iff.mp ht
    obtain ⟨before, after, he, -⟩ := List.lookup_eq_some_iff.mp hn
    exact h (name, n) (by rw [he]; simp) rest target ht

/-- What a node is. -/
def kind : Node → NodeKind
  | file _ => .file
  | directory _ => .directory
  | link _ => .other

/-- How many Kotlin sources are found below the node with a path. -/
def sourcesBelow (path : String) : Node → Nat
  | directory entries => kotlinSourcesIn path entries
  | file _ | link _ => 0

end Node

/-! ### Names one after another -/

/-- How a walk goes on at a name. -/
inductive Turn where
  /-- On from a directory. -/
  | onFrom (place : Place)
  /-- The name is that of a file. -/
  | file
  /-- The name is that of a link. -/
  | link (target : String)
  /-- There is nothing with the name. -/
  | nothing
  /-- The name is too long. -/
  | tooLong

/-- How a walk goes on at a name in a directory. -/
def turnAt (root : Node) (here : Place) (name : String) : Turn :=
  if name = "." then .onFrom here
  else if name = ".." then .onFrom here.dropLast
  else if maxNameSize < name.utf8ByteSize then .tooLong
  else
    match root.at? (here ++ [name]) with
    | none => .nothing
    | some (.directory _) => .onFrom (here ++ [name])
    | some (.file _) => .file
    | some (.link target) => .link target

/-- A walk takes one name after another. -/
theorem walkNames_cons {root : Node} {followLast w : Bool} {followLink : LinkStep} {here : Place}
    {name : String} {rest : List String} :
    walkNames root followLast w followLink here (name :: rest) =
      match turnAt root here name with
      | .onFrom place => walkNames root followLast w followLink place rest
      | .file =>
        if rest.isEmpty then .ok (.present (here ++ [name]) w) else .error .notADirectory
      | .link target =>
        if rest.isEmpty && !followLast && !w then .ok (.present (here ++ [name]) false)
        else followLink here target rest w
      | .nothing => if rest.isEmpty then .ok (.absent here name w) else .error .notFound
      | .tooLong => .error .nameTooLong := by
  unfold turnAt
  by_cases h1 : name = "."
  · rw [walkNames, if_pos h1, if_pos h1]
  by_cases h2 : name = ".."
  · rw [walkNames, if_neg h1, if_pos h2, if_neg h1, if_pos h2]
  by_cases h3 : maxNameSize < name.utf8ByteSize
  · rw [walkNames, if_neg h1, if_neg h2, if_pos h3, if_neg h1, if_neg h2, if_pos h3]
  rw [walkNames, if_neg h1, if_neg h2, if_neg h3, if_neg h1, if_neg h2, if_neg h3]
  cases root.at? (here ++ [name]) with
  | none => rfl
  | some n => cases n <;> rfl

@[simp] theorem turnAt_dot (root : Node) (here : Place) : turnAt root here "." = .onFrom here :=
  if_pos rfl

@[simp] theorem turnAt_up (root : Node) (here : Place) : turnAt root here ".." = .onFrom here.dropLast := rfl

/-- What a turn at a name tells of what has this name. -/
def Turn.Tells (n : Option Node) : Turn → Prop
  | file => ∃ content, n = some (.file content)
  | link target => n = some (.link target)
  | nothing => n = none
  | onFrom _ | tooLong => True

theorem tells_of_turnAt {root : Node} {here : Place} {name : String} {t : Turn} (h : turnAt root here name = t) :
    t.Tells (root.at? (here ++ [name])) := by
  subst h
  unfold turnAt
  split
  · trivial
  split
  · trivial
  split
  · trivial
  cases root.at? (here ++ [name]) with
  | none => rfl
  | some n =>
    cases n with
    | directory entries => trivial
    | file content => exact ⟨content, rfl⟩
    | link target => rfl

/-! ### Walks below a directory -/

/-- A turn in a tree as a turn in a tree around it. -/
def Turn.below (p : Place) : Turn → Turn
  | onFrom q => onFrom (p ++ q)
  | file => file
  | link target => link target
  | nothing => nothing
  | tooLong => tooLong

/-- A place in a tree as a place in a tree around it. -/
def Target.below (p : Place) : Target → Target
  | present q w => present (p ++ q) w
  | absent directory name w => absent (p ++ directory) name w

theorem descends_of_name {name : String} (h0 : name ≠ "") (h1 : name ≠ ".") (h2 : name ≠ "..") :
    descends name.toList = true := by
  simp only [descends, decide_eq_true_eq]
  refine ⟨fun h => h0 ?_, fun h => h1 ?_, fun h => h2 ?_⟩
  · exact String.toList_inj.mp h
  · exact String.toList_inj.mp h
  · exact String.toList_inj.mp h

/-- At a name that does not climb, a walk in a tree goes on as if the tree were all there is. -/
theorem turnAt_below {root n : Node} {p sub : Place} (hn : root.at? p = some n) {name : String}
    {r : List (List Char)} (h : climbsFrom sub.length (name.toList :: r) = false) :
    turnAt root (p ++ sub) name = (turnAt n sub name).below p := by
  by_cases h1 : name = "."
  · subst h1
    rw [turnAt_dot, turnAt_dot]
    rfl
  by_cases h2 : name = ".."
  · subst h2
    have hsub : sub ≠ [] := by
      rintro rfl
      cases h
    rw [turnAt_up, turnAt_up, List.dropLast_append_of_ne_nil hsub]
    rfl
  · have hat : root.at? (p ++ sub ++ [name]) = n.at? (sub ++ [name]) := by
      rw [List.append_assoc, Node.at?_append, hn]
      rfl
    simp only [turnAt, if_neg h1, if_neg h2, hat]
    split
    · rfl
    cases n.at? (sub ++ [name]) with
    | none => rfl
    | some e =>
      cases e with
      | directory entries =>
        rw [List.append_assoc]
        rfl
      | file content => rfl
      | link target => rfl

/-- The levels below the start are as many as the names of the place. -/
theorem climbsFrom_of_turnAt {n : Node} {sub q : Place} {name : String} (hne : name ≠ "")
    (hq : turnAt n sub name = .onFrom q) {r : List (List Char)}
    (h : climbsFrom sub.length (name.toList :: r) = false) : climbsFrom q.length r = false := by
  by_cases h1 : name = "."
  · subst h1
    rw [turnAt_dot] at hq
    cases hq
    exact h
  by_cases h2 : name = ".."
  · subst h2
    rw [turnAt_up] at hq
    cases hq
    cases hs : sub.length with
    | zero =>
      rw [hs] at h
      cases h
    | succ d =>
      rw [hs] at h
      rw [List.length_dropLast, hs]
      exact h
  · rw [RepoPath.climbsFrom_descends _ (descends_of_name hne h1 h2)] at h
    simp only [turnAt, if_neg h1, if_neg h2] at hq
    split at hq
    · cases hq
    split at hq
    · cases hq
    · cases hq
      rw [List.length_append]
      exact h
    · cases hq
    · cases hq

/-- In a tree without links, names that do not climb lead where they lead if this tree is all there is. -/
theorem walkNames_below {root n : Node} {p : Place} (hn : root.at? p = some n) (hl : n.LinkFree)
    {followLast w : Bool} (f g : LinkStep) {names : List String} {sub : Place}
    (hne : ∀ name ∈ names, name ≠ "") (h : climbsFrom sub.length (names.map String.toList) = false) :
    walkNames root followLast w f (p ++ sub) names =
      (walkNames n followLast w g sub names).map (Target.below p) := by
  induction names generalizing sub with
  | nil => rfl
  | cons name rest ih =>
    have hname := hne name List.mem_cons_self
    have hrest : ∀ name ∈ rest, name ≠ "" := fun s hs => hne s (List.mem_cons_of_mem name hs)
    rw [List.map_cons] at h
    rw [walkNames_cons, walkNames_cons, turnAt_below hn h]
    cases ht : turnAt n sub name with
    | onFrom q => exact ih hrest (climbsFrom_of_turnAt hname ht h)
    | file =>
      cases rest with
      | nil =>
        simp only [Turn.below, List.append_assoc]
        rfl
      | cons next rest => rfl
    | link target => exact absurd (tells_of_turnAt ht) (hl _ _)
    | nothing => cases rest <;> rfl
    | tooLong => rfl

/-! ### What a walk finds -/

/-- The node at the end of a walk. A file is none if a directory is asked for. -/
def nodeAt (root : Node) : Except OsError Target → Option Node
  | .error _ | .ok (.absent _ _ _) => none
  | .ok (.present place wantsDirectory) =>
    match root.at? place with
    | some (.directory entries) => some (.directory entries)
    | some n => if wantsDirectory then none else some n
    | none => none

theorem nodeAt_eq_directory_iff {root : Node} {t : Except OsError Target}
    {entries : List (String × Node)} : nodeAt root t = some (.directory entries) ↔
      ∃ q v, t = .ok (.present q v) ∧ root.at? q = some (.directory entries) := by
  cases t with
  | error e => simp [nodeAt]
  | ok t =>
    cases t with
    | absent directory name w => simp [nodeAt]
    | present q w =>
      simp only [nodeAt, Except.ok.injEq, Target.present.injEq]
      cases hq : root.at? q with
      | none => simp [hq]
      | some n => cases n <;> cases w <;> simp [hq]

theorem nodeAt_below {root n : Node} {p : Place} (hn : root.at? p = some n) (t : Except OsError Target) :
    nodeAt root (t.map (Target.below p)) = nodeAt n t := by
  cases t with
  | error e => rfl
  | ok t =>
    cases t with
    | absent directory name w => rfl
    | present q w =>
      have hq : root.at? (p ++ q) = n.at? q := by
        rw [Node.at?_append, hn]
        rfl
      simp only [Except.map, Target.below, nodeAt, hq]

/-- From a place with nothing, names that do not climb lead to nothing. -/
theorem nodeAt_walkNames_of_absent {root : Node} {p : Place} (hp : root.at? p = none)
    {followLast w : Bool} (f : LinkStep) {names : List String}
    (h : climbsFrom 0 (names.map String.toList) = false) :
    nodeAt root (walkNames root followLast w f p names) = none := by
  induction names with
  | nil => simp only [walkNames, nodeAt, hp]
  | cons name rest ih =>
    rw [walkNames_cons]
    by_cases h1 : name = "."
    · subst h1
      rw [turnAt_dot]
      exact ih h
    by_cases h2 : name = ".."
    · subst h2
      cases h
    · have hat : root.at? (p ++ [name]) = none := by
        rw [Node.at?_append, hp]
        rfl
      simp only [turnAt, if_neg h1, if_neg h2, hat]
      by_cases hsize : maxNameSize < name.utf8ByteSize
      · rw [if_pos hsize]
        rfl
      · rw [if_neg hsize]
        cases rest <;> rfl

/-! ### Links on the way -/

/-- What a walk does at a link when a number of links are still allowed. -/
def linkStep (root : Node) (followLast : Bool) : Nat → LinkStep
  | 0 => fun _ _ _ _ => .error .tooManyLinks
  | links + 1 => fun here target rest wantsDirectory =>
    if target.isEmpty then .error .notFound
    else
      walk root followLast links (if startsAtRoot target then [] else here)
        (pathNames target ++ rest)
        (wantsDirectory || (rest.isEmpty && endsWithSlash target))

theorem walk_eq (root : Node) (followLast : Bool) (links : Nat) (here : Place) (names : List String)
    (w : Bool) :
    walk root followLast links here names w =
      walkNames root followLast w (linkStep root followLast links) here names := by
  cases links <;> rfl

/-- The second of two walks fails as the first one does, or goes on with more names from where that
leads. -/
def Continues (root : Node) (more : List String) (v w : Bool) (first second : Except OsError Target) :
    Prop :=
  (∃ e, first = .error e ∧ second = .error e) ∨
    ∃ place links, first = .ok (.present place v) ∧ second = walk root true links place more w

theorem walkNames_append {root : Node} {more : List String} (hm : more ≠ []) {v w : Bool} {links : Nat}
    (hstep : ∀ here target rest, Continues root more v w
      (linkStep root true links here target (rest ++ ["."]) v)
      (linkStep root true links here target (rest ++ more) w))
    (here : Place) (names : List String) :
    Continues root more v w (walkNames root true v (linkStep root true links) here (names ++ ["."]))
      (walkNames root true w (linkStep root true links) here (names ++ more)) := by
  induction names generalizing here with
  | nil => exact .inr ⟨here, links, rfl, (walk_eq root true links here more w).symm⟩
  | cons name rest ih =>
    have hdot : (rest ++ ["."]).isEmpty = false := by simp
    have hmore : (rest ++ more).isEmpty = false := by simp [hm]
    rw [List.cons_append, List.cons_append, walkNames_cons, walkNames_cons, hdot, hmore]
    cases turnAt root here name with
    | onFrom place => exact ih place
    | file => exact .inl ⟨_, rfl, rfl⟩
    | link target => exact hstep here target rest
    | nothing => exact .inl ⟨_, rfl, rfl⟩
    | tooLong => exact .inl ⟨_, rfl, rfl⟩

/-- More names go on from where the first names lead. The point at the end of the first names asks for a
directory there, as the other names do. -/
theorem walk_append (root : Node) {more : List String} (hm : more ≠ []) (v w : Bool) (links : Nat)
    (here : Place) (names : List String) :
    Continues root more v w (walk root true links here (names ++ ["."]) v)
      (walk root true links here (names ++ more) w) := by
  induction links generalizing here names with
  | zero =>
    rw [walk_eq, walk_eq]
    exact walkNames_append hm (fun _ _ _ => .inl ⟨_, rfl, rfl⟩) here names
  | succ links ih =>
    rw [walk_eq, walk_eq]
    refine walkNames_append hm (fun here target rest => ?_) here names
    have hdot : (rest ++ ["."]).isEmpty = false := by simp
    have hmore : (rest ++ more).isEmpty = false := by simp [hm]
    simp only [linkStep, hdot, hmore, Bool.false_and, Bool.or_false, ← List.append_assoc]
    by_cases ht : target.isEmpty = true
    · rw [if_pos ht, if_pos ht]
      exact .inl ⟨_, rfl, rfl⟩
    · rw [if_neg ht, if_neg ht]
      exact ih _ _

theorem nodeAt_walkNames_dot {root : Node} {links : Nat}
    (hstep : ∀ here target rest,
      nodeAt root (linkStep root true links here target (rest ++ ["."]) true) =
        nodeAt root (linkStep root true links here target rest true))
    (here : Place) (names : List String) :
    nodeAt root (walkNames root true true (linkStep root true links) here (names ++ ["."])) =
      nodeAt root (walkNames root true true (linkStep root true links) here names) := by
  induction names generalizing here with
  | nil => rfl
  | cons name rest ih =>
    have hdot : (rest ++ ["."]).isEmpty = false := by simp
    rw [List.cons_append, walkNames_cons, walkNames_cons, hdot]
    cases ht : turnAt root here name with
    | onFrom place => exact ih place
    | file =>
      obtain ⟨content, hfile⟩ := tells_of_turnAt ht
      cases rest with
      | nil => simp [nodeAt, hfile]
      | cons next rest => rfl
    | link target =>
      simp only [Bool.not_true, Bool.and_false, Bool.false_eq_true, if_false]
      exact hstep here target rest
    | nothing => cases rest <;> rfl
    | tooLong => rfl

/-- Where a directory is asked for, a point at the end asks for nothing else. -/
theorem nodeAt_walk_dot (root : Node) (links : Nat) (here : Place) (names : List String) :
    nodeAt root (walk root true links here (names ++ ["."]) true) =
      nodeAt root (walk root true links here names true) := by
  induction links generalizing here names with
  | zero =>
    rw [walk_eq, walk_eq]
    exact nodeAt_walkNames_dot (fun _ _ _ => rfl) here names
  | succ links ih =>
    rw [walk_eq, walk_eq]
    refine nodeAt_walkNames_dot (fun here target rest => ?_) here names
    simp only [linkStep, Bool.true_or, ← List.append_assoc]
    split
    · rfl
    · exact ih _ _

/-! ### Machines -/

theorem pathNames_eq (path : String) :
    pathNames path = (Text.Path.steps path.toList).map String.ofList := rfl

theorem map_toList_pathNames (path : String) :
    (pathNames path).map String.toList = Text.Path.steps path.toList := by
  rw [pathNames_eq, List.map_map]
  exact (List.map_congr_left fun s _ => String.toList_ofList).trans (List.map_id _)

theorem ne_empty_of_mem_pathNames {path name : String} (h : name ∈ pathNames path) : name ≠ "" := by
  rintro rfl
  obtain ⟨s, hs, he⟩ := List.mem_map.mp h
  have hnil : s = [] := by
    rw [← String.toList_ofList (l := s), he]
    rfl
  rw [hnil] at hs
  simp at hs

/-- A path that is not empty and starts with a name has names. -/
theorem pathNames_ne_nil {path : String} (hne : path.toList ≠ []) (hs : path.toList.head? ≠ some '/') :
    pathNames path ≠ [] := by
  obtain ⟨c, r, hp⟩ := List.exists_cons_of_ne_nil hne
  have hc : c ≠ '/' := by
    rintro rfl
    exact hs (by rw [hp]; rfl)
  rw [pathNames_eq, hp, Text.Path.steps, Text.splitAt_cons_of_ne hc, List.filter_cons_of_pos (by rfl)]
  exact List.cons_ne_nil _ _

namespace Machine

/-- Where a path starts. -/
def start (m : Machine) (path : String) : Place :=
  if startsAtRoot path then [] else m.cwd

/-- The tree below the directory that a path leads to, if it leads to one. -/
def directoryAt? (m : Machine) (path : String) : Option Node :=
  match walk m.root true maxLinks (m.start path) (pathNames path ++ ["."]) true with
  | .ok (.present place _) => m.root.at? place
  | _ => none

/-- The node that a path leads to. -/
def found? (m : Machine) (path : String) : Option Node :=
  (m.node? path).toOption.map Prod.snd

theorem found?_eq (m : Machine) (path : String) : m.found? path = nodeAt m.root (m.target path) := by
  rw [found?, node?]
  cases m.target path with
  | error e => rfl
  | ok t =>
    cases t with
    | absent directory name w => rfl
    | present place w =>
      simp only [nodeAt]
      cases m.root.at? place with
      | none => rfl
      | some n => cases n <;> cases w <;> rfl

theorem kind?_eq (m : Machine) (path : String) : m.kind? path = (m.found? path).map Node.kind := by
  unfold kind? found?
  cases m.node? path with
  | error e => rfl
  | ok r => obtain ⟨place, n⟩ := r; cases n <;> rfl

theorem kotlinSources_eq (m : Machine) (path : String) :
    m.kotlinSources path = (m.found? path).elim 0 (Node.sourcesBelow path) := by
  unfold kotlinSources found?
  cases m.node? path with
  | error e => rfl
  | ok r => obtain ⟨place, n⟩ := r; cases n <;> rfl

theorem startsAtRoot_join (root : String) {s : String} (hs : s.toList.head? ≠ some '/') :
    startsAtRoot (Text.Path.join root s) = startsAtRoot root := by
  have h : (Text.Path.joinChars root.toList s.toList).head? = some '/' ↔
      root.toList.head? = some '/' := by
    rw [Text.Path.joinChars_eq _ hs]
    by_cases hr : root.toList = []
    · rw [if_pos hr, hr]
      exact iff_of_false hs (by simp)
    · obtain ⟨c, r, hc⟩ := List.exists_cons_of_ne_nil hr
      rw [if_neg hr, hc]
      split <;> rfl
  rw [startsAtRoot, startsAtRoot, Text.Path.join, String.toList_ofList, Bool.eq_iff_iff, beq_iff_eq, beq_iff_eq, h]

theorem start_join (m : Machine) (root : String) {s : String} (hs : s.toList.head? ≠ some '/') :
    m.start (Text.Path.join root s) = m.start root := by
  rw [start, start, startsAtRoot_join root hs]

theorem pathNames_join (root : String) {s : String} (hs : s.toList.head? ≠ some '/') :
    pathNames (Text.Path.join root s) = pathNames root ++ pathNames s := by
  rw [pathNames_eq, Text.Path.join, String.toList_ofList, Text.Path.steps_joinChars _ hs, List.map_append]
  rfl

theorem endsWithSlash_join (root : String) {s : String} (hs : s.toList.head? ≠ some '/')
    (hne : s.toList ≠ []) : endsWithSlash (Text.Path.join root s) = endsWithSlash s := by
  have h : (Text.Path.joinChars root.toList s.toList).getLast? = s.toList.getLast? := by
    rw [Text.Path.joinChars_eq _ hs]
    obtain ⟨r, c, hc⟩ := (List.eq_nil_or_concat s.toList).resolve_left hne
    split
    · rfl
    · split <;> rw [hc] <;> simp [List.getLast?_append, List.getLast?_cons]
  rw [endsWithSlash, endsWithSlash, Text.Path.join, String.toList_ofList, h]

/-- Nothing after a path asks for a directory. -/
theorem endsWithSlash_join_nil {root : String} (hr : root.toList ≠ []) :
    endsWithSlash (Text.Path.join root "") = true := by
  have h : (Text.Path.joinChars root.toList []).getLast? = some '/' := by
    rw [Text.Path.joinChars_eq _ (by simp), if_neg hr]
    split
    · rename_i h
      rwa [List.append_nil]
    · simp
  rw [endsWithSlash, Text.Path.join, String.toList_ofList]
  exact beq_iff_eq.mpr h

end Machine

/-- The node at a path in a tree, if the tree is all there is. -/
def Node.seen (n : Node) (path : String) : Option Node :=
  nodeAt n (walkNames n true (path.toList.isEmpty || endsWithSlash path) (linkStep n true 0) []
    (pathNames path))

namespace Machine

theorem nodeAt_walk_join (m : Machine) (root : String) {s : String} (hs : s.toList.head? ≠ some '/')
    (hc : climbsFrom 0 (Text.splitAt '/' s.toList) = false) (hne : s.toList ≠ [])
    (hl : ∀ n ∈ m.directoryAt? root, n.LinkFree) :
    nodeAt m.root (walk m.root true maxLinks (m.start root) (pathNames root ++ pathNames s)
      (endsWithSlash s)) = (m.directoryAt? root).bind fun n => n.seen s := by
  have hclimb : climbsFrom 0 ((pathNames s).map String.toList) = false := by
    rw [map_toList_pathNames, RepoPath.climbsFrom_steps]
    exact hc
  have hempty : s.toList.isEmpty = false := by simpa using hne
  unfold directoryAt? at hl ⊢
  rcases walk_append m.root (pathNames_ne_nil hne hs) true (endsWithSlash s) maxLinks (m.start root)
    (pathNames root) with ⟨e, h1, h2⟩ | ⟨place, links, h1, h2⟩
  · rw [h1, h2]
    rfl
  · rw [h1] at hl ⊢
    rw [h2, walk_eq]
    simp only at hl ⊢
    cases hn : m.root.at? place with
    | none => exact nodeAt_walkNames_of_absent hn _ hclimb
    | some n =>
      have hbelow : walkNames m.root true (endsWithSlash s) (linkStep m.root true links) (place ++ [])
          (pathNames s) = (walkNames n true (endsWithSlash s) (linkStep n true 0) []
          (pathNames s)).map (Target.below place) :=
        walkNames_below hn (hl n hn) _ _ (fun _ => ne_empty_of_mem_pathNames) hclimb
      rw [List.append_nil] at hbelow
      rw [hbelow, nodeAt_below hn, Option.bind_some, Node.seen, hempty, Bool.false_or]

theorem nodeAt_walk_self (m : Machine) (root : String) :
    nodeAt m.root (walk m.root true maxLinks (m.start root) (pathNames root) true) =
      (m.directoryAt? root).bind fun n => n.seen "" := by
  rw [← nodeAt_walk_dot]
  unfold directoryAt?
  rcases walk_append m.root (List.cons_ne_nil "." []) true true maxLinks (m.start root)
    (pathNames root) with ⟨e, h1, -⟩ | ⟨place, -, h1, -⟩
  · rw [h1]
    rfl
  · rw [h1]
    simp only [nodeAt]
    cases m.root.at? place with
    | none => rfl
    | some n => cases n <;> rfl

/-- What a machine finds at a path of a directory that does not lead out of it is found in the tree below
this directory, if there are no links in this tree. -/
theorem found?_join (m : Machine) (root : String) {s : String} (hs : s.toList.head? ≠ some '/')
    (hc : climbsFrom 0 (Text.splitAt '/' s.toList) = false)
    (hl : ∀ n ∈ m.directoryAt? root, n.LinkFree) :
    m.found? (Text.Path.join root s) =
      if (Text.Path.join root s).isEmpty then none
      else if maxPathSize < (Text.Path.join root s).utf8ByteSize then none
      else (m.directoryAt? root).bind fun n => n.seen s := by
  rw [found?_eq, target, follow]
  by_cases hempty : (Text.Path.join root s).isEmpty = true
  · rw [if_pos hempty, if_pos hempty]
    rfl
  rw [if_neg hempty, if_neg hempty]
  by_cases hsize : maxPathSize < (Text.Path.join root s).utf8ByteSize
  · rw [if_pos hsize, if_pos hsize]
    rfl
  rw [if_neg hsize, if_neg hsize, ← start, start_join m root hs, pathNames_join root hs]
  by_cases hne : s.toList = []
  · obtain rfl : s = "" := String.toList_inj.mp hne
    have hr : root.toList ≠ [] := by
      intro hr
      obtain rfl : root = "" := String.toList_inj.mp hr
      exact hempty rfl
    have hnil : pathNames "" = [] := rfl
    rw [endsWithSlash_join_nil hr, hnil, List.append_nil]
    exact nodeAt_walk_self m root
  · rw [endsWithSlash_join root hs hne]
    exact nodeAt_walk_join m root hs hc hne hl

end Machine

end SurfaceRegistry.Disk
