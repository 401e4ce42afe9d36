import SurfaceRegistry.Proofs.Disk.Writing

/-!
# What is above a directory

If a path leads to a directory, a path with fewer names leads to a directory, too, as long as the names that are left
out lead down (`Machine.kind?_above`). The walk along the longer path passes the place to which the shorter one leads;
the links on the way count against it, not for it.
-/

namespace SurfaceRegistry.Disk

open SurfaceRegistry.RepoPath (descends)

variable {root : Node}

/-! ### Walks -/

/-- Where a name leads down, there is a directory with an entry of this name. -/
theorem directory_of_turnAt_descends {here : Place} {name : String} (hname : descends name.toList = true)
    (h : turnAt root here name ≠ .nothing) (h' : turnAt root here name ≠ .tooLong) :
    ∃ entries, root.at? here = some (.directory entries) := by
  have hdot : name ≠ "." := by
    rintro rfl
    cases hname
  have hup : name ≠ ".." := by
    rintro rfl
    cases hname
  cases hat : root.at? (here ++ [name]) with
  | some n => exact Node.exists_directory_of_at?_append hat
  | none =>
    unfold turnAt at h h'
    rw [if_neg hdot, if_neg hup] at h h'
    split at h'
    · exact absurd rfl h'
    · rename_i hsize
      rw [if_neg hsize, hat] at h
      exact absurd rfl h

/-- A walk that leads to a node by way of names, the first of which leads down, starts in a directory. -/
theorem directory_of_walk_present {links : Nat} {here p : Place} {name : String} {rest : List String} {w v : Bool}
    (hname : descends name.toList = true)
    (h : walk root true links here (name :: rest) w = .ok (.present p v)) :
    ∃ entries, root.at? here = some (.directory entries) := by
  rw [walk_cons] at h
  refine directory_of_turnAt_descends hname ?_ ?_
  · intro hturn
    rw [hturn] at h
    cases rest <;> cases h
  · intro hturn
    rw [hturn] at h
    cases h

namespace Machine

variable {m : Machine}

/-- Above a directory there is a directory. The path `above` may say that it means one by a point at its end. -/
theorem kind?_above {above below : String} {names more : List String} {name : String}
    (h : m.kind? below = some .directory) (hbelow : pathNames below = names ++ name :: more)
    (habove : pathNames above = names ∨ pathNames above = names ++ ["."]) (hname : descends name.toList = true)
    (hstart : startsAtRoot above = startsAtRoot below) (hne : above.isEmpty = false)
    (hsize : above.utf8ByteSize ≤ below.utf8ByteSize) : m.kind? above = some .directory := by
  obtain ⟨p, v, -, htarget, -⟩ := kind?_eq_directory_iff.mp h
  obtain ⟨⟨-, hmax⟩, hwalk⟩ := follow_eq_ok_iff.mp htarget
  rw [hbelow] at hwalk
  have hfollow {q : Place} {v : Bool} {entries : List (String × Node)}
      (hq : walk m.root true maxLinks (if startsAtRoot below then [] else m.cwd) (pathNames above) true =
        .ok (.present q v)) (hdir : m.root.at? q = some (.directory entries)) : m.kind? above = some .directory := by
    obtain ⟨q', v', hv', hsame⟩ := exists_walk_present _ _ _ _ hq true (endsWithSlash above)
    obtain rfl := hsame rfl
    refine kind?_eq_directory_iff.mpr ⟨q', v', entries, ?_, hdir⟩
    rw [Machine.target, follow_eq_ok_iff, hstart]
    exact ⟨⟨hne, hsize.trans hmax⟩, hv'⟩
  rcases walk_append m.root (List.cons_ne_nil name more) true (endsWithSlash below) maxLinks
    (if startsAtRoot below then [] else m.cwd) names with ⟨e, -, herror⟩ | ⟨q, links, hq, hon⟩
  · rw [herror] at hwalk
    cases hwalk
  · rw [hon] at hwalk
    obtain ⟨entries, hdir⟩ := directory_of_walk_present hname hwalk
    rcases habove with habove | habove
    · have hnode := nodeAt_eq_directory_iff.mpr ⟨q, true, hq, hdir⟩
      rw [nodeAt_walk_dot, ← habove] at hnode
      obtain ⟨q', v', hq', hdir'⟩ := nodeAt_eq_directory_iff.mp hnode
      exact hfollow hq' hdir'
    · rw [← habove] at hq
      exact hfollow hq hdir

end Machine

end SurfaceRegistry.Disk
