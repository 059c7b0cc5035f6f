import CodeReview.Proofs.Delivery.Collection

/-!
# Files that are generated in a directory

What a generated file is called depends on a locator, and a locator can be any text: it may be
empty, hold double dots, slashes and backslashes, or be an absolute path.  None of this leads out of
the directory.  The stem of a locator is not empty and has no separators (`Delivery.not_mem_stem`),
so that the file is the directory's own (`Path.isChild_join`), and delivering a result there changes
nothing else on the disk (`Disk.changed_of_store_join`).
-/

namespace CodeReview

open CodeReview.Text

/-! ### Children of a directory -/

namespace Path

variable {directory name path : String}

/-- A path is that of a directory and one more name. -/
structure IsChild (directory path name : String) : Prop where
  isAbsolute : Path.isAbsolute path = Path.isAbsolute directory
  startsInDot : Path.startsInDot path = Path.startsInDot directory
  parts : Path.parts path = Path.parts directory ++ [name]
  fileName : Path.fileName? path = some name

/-- A name put behind a directory does not change how its path starts. -/
lemma startsInDot_join (hname : IsName name) (hdirectory : directory ≠ "") :
    startsInDot (join directory name) = startsInDot directory := by
  have hfirst : ∀ front y, (splitOn (· == '/') (front ++ '/' :: y)).head? =
      (splitOn (· == '/') front).head? := by
    intro front y
    rw [splitOn_append_separator (by simp)]
    exact List.head?_append_of_ne_nil _ (splitOn_ne_nil _ front)
  obtain ⟨front, hjoin, hfront⟩ := exists_toList_join hname hdirectory
  unfold startsInDot
  rw [hjoin, hfirst]
  rcases hfront with hfront | hfront
  · rw [hfront, hfirst]
  · rw [hfront]

/-- **A name below a directory is a child of it.** -/
lemma isChild_join (hname : IsName name) (hdirectory : directory ≠ "") :
    IsChild directory (join directory name) name := by
  have hparts := parts_join hname hdirectory
  refine ⟨isAbsolute_join hname hdirectory, startsInDot_join hname hdirectory, hparts, ?_⟩
  exact fileName?_of_getLast? (by rw [hparts, List.getLast?_concat]) hname.ne_dotdot

end Path

/-! ### What storing a child touches -/

namespace Disk

variable {d : Disk} {directory name text : String} {here there place : Place}
  {front parts : List String} {last : String}

/-- Parts can be followed to the end exactly if the last one leads to a directory. -/
lemma enter_concat_iff : d.enter here (front ++ [last]) = .ok there ↔
    ∃ above, d.enter here front = .ok above ∧ step above last = .ok there ∧
      d.get? there = some .directory := by
  rw [enter_append]
  cases d.enter here front with
  | error e => simp [Except.bind]
  | ok above =>
      simp only [Except.bind, enter, Except.ok.injEq, exists_eq_left']
      cases step above last with
      | error e => simp
      | ok next =>
          simp only [Except.ok.injEq]
          cases hnext : d.get? next with
          | none => grind
          | some entry => cases entry <;> grind

/-- The parts of a path to a directory can be followed to the end. -/
lemma enter_of_isDirectory (h : d.isDirectory directory = true) :
    ∃ there, d.enter (d.start directory) (Path.parts directory) = .ok there := by
  obtain ⟨place, hplace, hentry⟩ := isDirectory_iff.mp h
  unfold locate at hplace
  split_ifs at hplace
  cases hlast : (Path.parts directory).getLast? with
  | none =>
      rw [List.getLast?_eq_none_iff.mp hlast]
      exact ⟨_, rfl⟩
  | some last =>
      obtain ⟨front, hfront⟩ := List.getLast?_eq_some_iff.mp hlast
      simp only [hlast] at hplace
      rw [hfront, List.dropLast_concat] at hplace
      cases hway : d.enter (d.start directory) front with
      | error e => simp [hway] at hplace
      | ok above =>
          simp only [hway] at hplace
          exact ⟨place, hfront ▸ enter_concat_iff.mpr ⟨above, hway, hplace, hentry⟩⟩

/-- Directories that are there are not made. -/
lemma makeDirectories_of_enter (h : d.enter here parts.reverse = .ok there) :
    (d.makeDirectories here parts).2 = d := by
  cases parts with
  | nil => rfl
  | cons last above =>
      have hthere : d.leadsToDirectory here (last :: above).reverse = true := by
        rw [leadsToDirectory, h]
      rw [List.reverse_cons] at h
      obtain ⟨place, hway, hstep, hentry⟩ := enter_concat_iff.mp h
      have hmade : d.makeDirectory here (last :: above).reverse = .error .alreadyExists := by
        simp only [makeDirectory, List.reverse_cons, List.getLast?_concat, List.dropLast_concat,
          hway, hstep, hentry]
      rw [makeDirectories, hmade]
      simp only [hthere, if_true]

/-- Nothing is made above a child of a directory. -/
lemma makeParents_join (hdirectory : d.isDirectory directory = true)
    (hname : Path.IsName name) : (d.makeParents (Path.join directory name)).2 = d := by
  have hne := ne_empty_of_isDirectory hdirectory
  have habove : (Path.parts (Path.join directory name)).dropLast = Path.parts directory := by
    rw [Path.parts_join hname hne, List.dropLast_concat]
  have hstart : d.start (Path.join directory name) = d.start directory := by
    rw [start, start, Path.isAbsolute_join hname hne]
  obtain ⟨there, hway⟩ := enter_of_isDirectory hdirectory
  unfold makeParents
  rw [habove, hstart]
  dsimp only
  split_ifs
  · rfl
  · rfl
  · rfl
  · exact makeDirectories_of_enter (by rwa [List.reverse_reverse])

/-- **Storing a text in a child of a directory changes nothing but the child.** -/
lemma changed_of_store_join (hdirectory : d.isDirectory directory = true)
    (hname : Path.IsName name)
    (hchanged : (d.store (Path.join directory name) text).2.get? place ≠ d.get? place) :
    place = d.target directory ++ [name] := by
  rw [← target_join hdirectory hname]
  have hparents := makeParents_join hdirectory hname
  cases hstore : (d.store (Path.join directory name) text).1 with
  | error e =>
      rw [store_eq_makeParents hstore, hparents] at hchanged
      exact absurd rfl hchanged
  | ok _ =>
      obtain ⟨-, -, hput⟩ := writable_of_store hstore
      rw [hput, hparents] at hchanged
      by_contra hother
      exact hchanged (get?_put_of_ne hother)

end Disk

namespace Delivery

/-- **A generated file is in its directory.**  Whatever the locator is, the path is that of the
directory with one more name, which is made of a stem that is not empty and has no separators, the
operation and the time; it leads to the place of that name in the directory, and when a result is
delivered there, nothing else on the disk changes. -/
theorem targetPath_isChild (e : Emission) {m : Machine} {directory : String}
    (hdirectory : m.disk.isDirectory directory = true) :
    let path := targetPath { m with stamp := e.time.stamp } directory e.locator e.operation
    let stem := stem e.locator
    let name := stem ++ "_" ++ e.operation.fileTag ++ "_" ++ e.time.stamp ++ ".txt"
    (stem ≠ "" ∧ '/' ∉ stem.toList ∧ '\\' ∉ stem.toList) ∧ Path.IsChild directory path name ∧
      m.disk.target path = m.disk.target directory ++ [name] ∧
      ∀ place, ((e.deliver directory).run m).2.disk.get? place ≠ m.disk.get? place →
        place = m.disk.target directory ++ [name] := by
  intro path stem name
  have hname : Path.IsName name := e.isName_name
  have hpath : path = Path.join directory name := if_pos hdirectory
  have hstem : stem ≠ "" ∧ '/' ∉ stem.toList ∧ '\\' ∉ stem.toList :=
    ⟨stem_ne_empty e.locator, not_mem_stem e.locator (.inl rfl), not_mem_stem e.locator (.inr rfl)⟩
  rw [hpath]
  refine ⟨hstem, Path.isChild_join hname (Disk.ne_empty_of_isDirectory hdirectory),
    Disk.target_join hdirectory hname, fun place hchanged => ?_⟩
  obtain ⟨r, m', hrun, hdisk, -⟩ := e.deliver_run hdirectory
  rw [hrun, hdisk] at hchanged
  exact Disk.changed_of_store_join hdirectory hname hchanged

/-- A locator that tries every way out. -/
theorem targetPath_isChild_dots :
    let e : Emission := ⟨noon, "text", "/etc/..\\..//", .securityAudit⟩
    let path := targetPath { shelf with stamp := e.time.stamp } "out" e.locator e.operation
    let name := "output_security_audit_20240229_120000.txt"
    shelf.disk.isDirectory "out" = true ∧ stem e.locator = "output" ∧
      Path.IsChild "out" path name ∧ shelf.disk.target path = ["out", name] := by
  intro e path name
  have hstem : stem e.locator = "output" := by decide
  have hname : stem e.locator ++ "_" ++ e.operation.fileTag ++ "_" ++ e.time.stamp ++ ".txt" =
      name := by decide
  obtain ⟨-, hchild, htarget, -⟩ := targetPath_isChild e isDirectory_shelf
  rw [hname] at hchild htarget
  have hout : shelf.disk.target "out" = ["out"] := by decide
  rw [hout] at htarget
  exact ⟨isDirectory_shelf, hstem, hchild, htarget⟩

end Delivery

end CodeReview
