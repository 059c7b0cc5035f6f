import CodeReview.Proofs.Delivery.Naming
import CodeReview.Proofs.Disk.Footprint
import CodeReview.Proofs.Disk.Parents
import CodeReview.Proofs.Review.Submission

/-!
# Results collected in a directory

Results can be delivered to one directory, one after the other, each at its local time.  Where one
is saved, its file has a generated name.  Two results are in one file exactly if their names are
made of the same stem, the same operation and the same second (`Emission.SameName`); the one that
was saved last is then what the file holds.  So all texts that were saved are still there in the end
exactly if no two of them which differ have the same name (`Delivery.emitAll_keeps_iff`).
-/

namespace CodeReview

/-- A result that is delivered, and when. -/
structure Emission where
  time : LocalTime
  text : String
  locator : String
  operation : Operation

/-- A result that was saved, and the path that was told. -/
structure Receipt where
  emission : Emission
  path : String

namespace Emission

/-- The name of the file that is made for the result. -/
def name (e : Emission) : String := Delivery.fileName e.locator e.operation e.time.stamp

/-- The results are for sources with the same stem and for the same operation, and are delivered in
the same second. -/
structure SameName (e e' : Emission) : Prop where
  stem : Delivery.stem e.locator = Delivery.stem e'.locator
  operation : e.operation = e'.operation
  time : e.time = e'.time

/-- Deliver the result to a directory at its time. -/
def deliver (directory : String) (e : Emission) : Act (Except Failure Delivery) := do
  modify fun m => { m with stamp := e.time.stamp }
  (Delivery.deliver e.text (some directory) e.locator e.operation).run

variable {e e' : Emission} {directory : String}

/-- Two results have one name where stem, operation and second are the same. -/
lemma name_eq_iff : e.name = e'.name ↔ e.SameName e' := by
  constructor
  · intro h
    obtain ⟨hstem, hoperation, htime⟩ := Delivery.fileName_inj h
    exact ⟨hstem, hoperation, htime⟩
  · rintro ⟨hstem, hoperation, htime⟩
    rw [name, name, Delivery.fileName, Delivery.fileName, hstem, hoperation, htime]

/-- Having the same name is mutual. -/
lemma SameName.symm (h : e.SameName e') : e'.SameName e :=
  ⟨h.stem.symm, h.operation.symm, h.time.symm⟩

/-- A generated name can be that of a file. -/
lemma isName_name (e : Emission) : Path.IsName e.name := Delivery.isName_fileName _ _ _

/-- Delivering a result to a directory stores it under its name. -/
lemma deliver_run {m : Machine} (hdirectory : m.disk.isDirectory directory = true)
    (e : Emission) : ∃ r m', (e.deliver directory).run m = (r, m') ∧
      m'.disk = (m.disk.store (Path.join directory e.name) e.text).2 ∧
      ((m.disk.store (Path.join directory e.name) e.text).1 = .ok () →
        r = .ok (.saved (Path.join directory e.name))) ∧
      ∀ f, (m.disk.store (Path.join directory e.name) e.text).1 = .error f →
        r = .error (.output (Path.join directory e.name) f.message) := by
  let m₁ : Machine := { m with stamp := e.time.stamp }
  have htarget : Delivery.targetPath m₁ directory e.locator e.operation =
      Path.join directory e.name := if_pos hdirectory
  obtain ⟨r, t, hsave, hdisk, -, hr⟩ := Delivery.save_leaves m₁ (Path.join directory e.name) e.text
  rw [← htarget] at hsave
  have hdeliver : Command.Leaves
      (Delivery.deliver e.text (some directory) e.locator e.operation) m₁ r t :=
    Command.leaves_get_bind hsave fun _ _ => rfl
  have htime : (modify fun m => { m with stamp := e.time.stamp } : Act Unit).run m = ((), m₁) := rfl
  have hrun : (e.deliver directory).run m = (r, m₁.after t) :=
    (Act.run_bind_of htime).trans hdeliver.run_eq
  have hsame : m₁.disk = m.disk := rfl
  rw [hsame] at hdisk hr
  refine ⟨r, m₁.after t, hrun, hdisk, fun hok => ?_, fun f herror => ?_⟩
  · rw [hr, hok]
  · rw [hr, herror]

end Emission

/-! ### Where the results are -/

variable {directory : String} {d d' : Disk}

/-- The path of a directory has characters. -/
lemma Disk.ne_empty_of_isDirectory (h : d.isDirectory directory = true) : directory ≠ "" := by
  rintro rfl
  obtain ⟨place, hplace, -⟩ := isDirectory_iff.mp h
  simp [locate, String.contains_char_eq] at hplace

/-- The file of a result in a directory. -/
lemma Disk.target_join {name : String} (hdirectory : d.isDirectory directory = true)
    (hname : Path.IsName name) :
    d.target (Path.join directory name) = d.target directory ++ [name] := by
  have hne := ne_empty_of_isDirectory hdirectory
  have hstart : d.start (Path.join directory name) = d.start directory := by
    rw [start, start, Path.isAbsolute_join hname hne]
  rw [target, target, hstart, Path.parts_join hname hne, walk_append]
  simp only [walk, List.foldl_cons, List.foldl_nil, next, if_neg hname.ne_dotdot]

/-- From the one disk to the other, results were saved in a directory, with these receipts: each
receipt leads to a file still, which has the text of one of them, and no other file has changed. -/
structure Collected (directory : String) (d : Disk) (rs : List Receipt) (d' : Disk) : Prop where
  directories : d.KeepsDirectories d'
  path_eq : ∀ r ∈ rs, r.path = Path.join directory r.emission.name
  found : ∀ r ∈ rs, d'.locate r.path = .ok (d.target r.path)
  content : ∀ r ∈ rs, ∃ r' ∈ rs, d.target r'.path = d.target r.path ∧
    d'.fileAt? (d.target r.path) = some r'.emission.text.toUTF8
  others : ∀ place, (∀ r ∈ rs, d.target r.path ≠ place) → d'.fileAt? place = d.fileAt? place

namespace Collected

variable {rs : List Receipt} {r r' : Receipt} {e : Emission} {path : String}

/-- Where nothing was saved, nothing has changed. -/
lemma nil (directory : String) (d : Disk) : Collected directory d [] d :=
  ⟨.refl d, nofun, nofun, nofun, fun _ _ => rfl⟩

/-- A result that was saved before the others. -/
lemma saved (hpath : path = Path.join directory e.name)
    (hstore : (d.store path e.text).1 = .ok ())
    (h : Collected directory (d.store path e.text).2 rs d') :
    Collected directory d (⟨e, path⟩ :: rs) d' := by
  have hkeeps := d.store_keepsDirectories path e.text
  have hfound : (d.store path e.text).2.locate path = .ok (d.target path) := by
    obtain ⟨-, place, hplace, -⟩ := Disk.stored_of_store hstore
    rw [hplace, Disk.target_of_locate hplace, hkeeps.target]
  have hcontent : (d.store path e.text).2.fileAt? (d.target path) = some e.text.toUTF8 := by
    rw [Disk.fileAt?, Disk.get?_target_of_store hstore]
  have hlater := h.content
  have hothers := h.others
  simp only [hkeeps.target] at hlater hothers
  refine ⟨hkeeps.trans h.directories, ?_, ?_, ?_, ?_⟩
  · exact List.forall_mem_cons.mpr ⟨hpath, h.path_eq⟩
  · refine List.forall_mem_cons.mpr ⟨h.directories.locate hfound, ?_⟩
    simpa only [hkeeps.target] using h.found
  · refine List.forall_mem_cons.mpr ⟨?_, fun r hr => ?_⟩
    · by_cases hagain : ∃ r ∈ rs, d.target r.path = d.target path
      · -- a later result has taken the place of this one
        obtain ⟨r, hr, htarget⟩ := hagain
        obtain ⟨r', hr', htarget', htext⟩ := hlater r hr
        exact ⟨r', List.mem_cons_of_mem _ hr', htarget'.trans htarget, htarget ▸ htext⟩
      · refine ⟨⟨e, path⟩, List.mem_cons_self, rfl, ?_⟩
        rw [hothers _ fun r hr htarget => hagain ⟨r, hr, htarget⟩, hcontent]
    · obtain ⟨r', hr', htarget, htext⟩ := hlater r hr
      exact ⟨r', List.mem_cons_of_mem _ hr', htarget, htext⟩
  · intro place hplace
    obtain ⟨hself, hrest⟩ := List.forall_mem_cons.mp hplace
    rw [hothers place hrest, Disk.fileAt?_of_store hself.symm]

/-- A result that could not be saved. -/
lemma unsaved {f : DiskFault} (hstore : (d.store path e.text).1 = .error f)
    (h : Collected directory (d.store path e.text).2 rs d') : Collected directory d rs d' := by
  have hkeeps := d.store_keepsDirectories path e.text
  have hsame := Disk.sameFiles_of_store hstore
  refine ⟨hkeeps.trans h.directories, h.path_eq, ?_, ?_, ?_⟩
  · simpa only [hkeeps.target] using h.found
  · simpa only [hkeeps.target] using h.content
  · intro place hplace
    rw [h.others place (by simpa only [hkeeps.target] using hplace), hsame place]

/-- Two receipts lead to one file exactly if their results have the same name. -/
lemma target_eq_iff (h : Collected directory d rs d') (hdirectory : d.isDirectory directory = true)
    (hr : r ∈ rs) (hr' : r' ∈ rs) :
    d.target r.path = d.target r'.path ↔ r.emission.SameName r'.emission := by
  rw [h.path_eq r hr, h.path_eq r' hr', Disk.target_join hdirectory r.emission.isName_name,
    Disk.target_join hdirectory r'.emission.isName_name, ← Emission.name_eq_iff]
  simp

/-- Reading a file of the directory gives a text exactly if it holds that text. -/
lemma readText_eq_iff (h : Collected directory d rs d') (hdirectory : d.isDirectory directory = true)
    (hr : r ∈ rs) (text : String) :
    d'.readText r.path = .ok text ↔ d'.fileAt? (d.target r.path) = some text.toUTF8 := by
  have hfound := h.found r hr
  have hnames : Path.namesDirectory r.path = false := by
    rw [h.path_eq r hr]
    exact Path.namesDirectory_join r.emission.isName_name (Disk.ne_empty_of_isDirectory hdirectory)
  exact Disk.readText_eq_iff hfound hnames

end Collected

namespace Delivery

/-- Deliver results to a directory one after the other, and keep the receipts of those that were
saved. -/
def emitAll (directory : String) : List Emission → Act (List Receipt)
  | [] => pure []
  | e :: rest => do
    match ← e.deliver directory with
    | .ok (.saved path) => do pure (⟨e, path⟩ :: (← emitAll directory rest))
    | _ => emitAll directory rest

section Steps

variable {m : Machine} {e : Emission} {path : String}

/-- A result that can be stored is saved before the others. -/
lemma emitAll_of_stored (hdirectory : m.disk.isDirectory directory = true)
    (hpath : Path.join directory e.name = path) (hstore : (m.disk.store path e.text).1 = .ok ())
    (rest : List Emission) : ∃ m', m'.disk = (m.disk.store path e.text).2 ∧
      (emitAll directory (e :: rest)).run m =
        (⟨e, path⟩ :: ((emitAll directory rest).run m').1,
          ((emitAll directory rest).run m').2) := by
  subst hpath
  obtain ⟨r, m', hrun, hdisk, hok, -⟩ := e.deliver_run hdirectory
  refine ⟨m', hdisk, ?_⟩
  rw [emitAll, Act.run_bind_of hrun, hok hstore]
  rfl

/-- A result that cannot be stored is left out. -/
lemma emitAll_of_fault {f : DiskFault} (hdirectory : m.disk.isDirectory directory = true)
    (hpath : Path.join directory e.name = path)
    (hstore : (m.disk.store path e.text).1 = .error f) (rest : List Emission) :
    ∃ m', m'.disk = (m.disk.store path e.text).2 ∧
      (emitAll directory (e :: rest)).run m = (emitAll directory rest).run m' := by
  subst hpath
  obtain ⟨r, m', hrun, hdisk, -, herror⟩ := e.deliver_run hdirectory
  refine ⟨m', hdisk, ?_⟩
  rw [emitAll, Act.run_bind_of hrun, herror f hstore]

/-- **What delivering results to a directory leaves there.** -/
lemma emitAll_collected (es : List Emission) (hdirectory : m.disk.isDirectory directory = true) :
    Collected directory m.disk ((emitAll directory es).run m).1
      ((emitAll directory es).run m).2.disk := by
  induction es generalizing m with
  | nil => exact .nil directory m.disk
  | cons e rest ih =>
      have hlasts := (m.disk.store_keepsDirectories (Path.join directory e.name)
        e.text).isDirectory hdirectory
      cases hstore : (m.disk.store (Path.join directory e.name) e.text).1 with
      | ok _ =>
          obtain ⟨m', hdisk, hrun⟩ := emitAll_of_stored hdirectory rfl hstore rest
          rw [← hdisk] at hlasts
          have hrest := ih hlasts
          rw [hdisk] at hrest
          rw [hrun]
          exact hrest.saved rfl hstore
      | error f =>
          obtain ⟨m', hdisk, hrun⟩ := emitAll_of_fault hdirectory rfl hstore rest
          rw [← hdisk] at hlasts
          have hrest := ih hlasts
          rw [hdisk] at hrest
          rw [hrun]
          exact hrest.unsaved hstore

/-- The receipts are those of the results that were delivered, in order. -/
lemma emitAll_sublist (es : List Emission) (hdirectory : m.disk.isDirectory directory = true) :
    (((emitAll directory es).run m).1.map Receipt.emission).Sublist es := by
  induction es generalizing m with
  | nil => exact List.Sublist.refl []
  | cons e rest ih =>
      have hlasts := (m.disk.store_keepsDirectories (Path.join directory e.name)
        e.text).isDirectory hdirectory
      cases hstore : (m.disk.store (Path.join directory e.name) e.text).1 with
      | ok _ =>
          obtain ⟨m', hdisk, hrun⟩ := emitAll_of_stored hdirectory rfl hstore rest
          rw [hrun]
          exact (ih (hdisk ▸ hlasts)).cons_cons e
      | error f =>
          obtain ⟨m', hdisk, hrun⟩ := emitAll_of_fault hdirectory rfl hstore rest
          rw [hrun]
          exact (ih (hdisk ▸ hlasts)).cons e

end Steps

/-- **Results that are delivered to one directory** are in files of their own exactly if no two of
those that were saved are for the same stem and operation and of the same second.  Each text that
was saved is still in its file exactly if any two such results have the same text. -/
theorem emitAll_keeps_iff (es : List Emission) {m : Machine}
    (hdirectory : m.disk.isDirectory directory = true) :
    let rs := ((emitAll directory es).run m).1
    let after := ((emitAll directory es).run m).2.disk
    (rs.map Receipt.emission).Sublist es ∧
    ((rs.Pairwise fun r r' => m.disk.target r.path ≠ m.disk.target r'.path) ↔
      rs.Pairwise fun r r' => ¬r.emission.SameName r'.emission) ∧
    ((∀ r ∈ rs, after.readText r.path = .ok r.emission.text) ↔
      rs.Pairwise fun r r' => r.emission.SameName r'.emission →
        r.emission.text = r'.emission.text) := by
  intro rs after
  have h : Collected directory m.disk rs after := emitAll_collected es hdirectory
  refine ⟨emitAll_sublist es hdirectory, ?_, ?_⟩
  · refine List.Pairwise.iff_of_mem fun {r r'} hr hr' => ?_
    rw [ne_eq, h.target_eq_iff hdirectory hr hr']
  · constructor
    · intro hkept
      refine List.pairwise_of_forall_mem_list fun r hr r' hr' hname => ?_
      have htext := (h.readText_eq_iff hdirectory hr _).mp (hkept r hr)
      have htext' := (h.readText_eq_iff hdirectory hr' _).mp (hkept r' hr')
      rw [(h.target_eq_iff hdirectory hr hr').mpr hname, htext'] at htext
      exact (Text.toUTF8_inj.mp (Option.some.inj htext)).symm
    · intro hpairwise r hr
      have hsymm : Std.Symm fun r r' : Receipt =>
          r.emission.SameName r'.emission → r.emission.text = r'.emission.text :=
        ⟨fun _ _ hxy hname => (hxy hname.symm).symm⟩
      have hsame := List.Pairwise.forall_of_forall (fun _ _ _ => rfl) hpairwise
      obtain ⟨r', hr', htarget, htext⟩ := h.content r hr
      have hname := (h.target_eq_iff hdirectory hr' hr).mp htarget
      rw [h.readText_eq_iff hdirectory hr, htext, hsame hr' hr hname]

/-- Noon of a leap day. -/
def noon : LocalTime :=
  ⟨2024, 2, 29, 12, 0, 0, by decide, by decide, by decide, by decide, by decide⟩

/-- A machine with one directory. -/
def shelf : Machine := { Machine.bare with disk := ⟨[(["out"], .directory)], []⟩ }

/-- The shelf has its directory. -/
lemma isDirectory_shelf : shelf.disk.isDirectory "out" = true :=
  Disk.isDirectory_iff.mpr ⟨["out"], Disk.locate_of_enter (by decide) rfl, rfl⟩

/-- Two analyses of files with the same name, one second after the other. -/
theorem emitAll_keeps_seconds :
    let later : LocalTime :=
      ⟨2024, 2, 29, 12, 0, 1, by decide, by decide, by decide, by decide, by decide⟩
    let es : List Emission :=
      [⟨noon, "first", "a/x.py", .analyze⟩, ⟨later, "second", "b/x.py", .analyze⟩]
    let run := (emitAll "out" es).run shelf
    shelf.disk.isDirectory "out" = true ∧
      ∀ r ∈ run.1, run.2.disk.readText r.path = .ok r.emission.text := by
  intro later es run
  have hiff := emitAll_keeps_iff es isDirectory_shelf
  have hes : es.Pairwise fun e e' => e.SameName e' → e.text = e'.text := by
    refine List.pairwise_pair.mpr fun hname => ?_
    exact absurd (congrArg LocalTime.second hname.time) (by decide)
  refine ⟨isDirectory_shelf, hiff.2.2.mpr ?_⟩
  exact List.pairwise_map.mp (hes.sublist hiff.1)

/-- **Two analyses that end in the same second**, of sources that differ in their directories only:
both are saved, and the text of the first one is lost. -/
theorem emitAll_loses :
    let first : Emission := ⟨noon, "first", "a/x.py", .analyze⟩
    let second : Emission := ⟨noon, "second", "b/x.py", .analyze⟩
    let path := "out/x_analyze_20240229_120000.txt"
    let run := (emitAll "out" [first, second]).run shelf
    shelf.disk.isDirectory "out" = true ∧ run.1 = [⟨first, path⟩, ⟨second, path⟩] ∧
      run.2.disk.readText path = .ok "second" := by
  intro first second path run
  have hdirectory := isDirectory_shelf
  have hfirst : Path.join "out" first.name = path := by decide
  have hsecond : Path.join "out" second.name = path := by decide
  have hparents : shelf.disk.makeParents path = (.ok (), shelf.disk) := by
    rw [Disk.makeParents_eq (by decide) (by decide)]
    decide
  have hfile : Path.NamesFile path := by decide
  have hstore : (shelf.disk.store path first.text).1 = .ok () := by
    refine (Disk.store_ok_iff first.text (by rw [hparents])).mpr ⟨hfile, ?_⟩
    rw [hparents]
    exact Disk.isDirectory_of_target (by decide)
  obtain ⟨m, hdisk, hrun⟩ := emitAll_of_stored hdirectory hfirst hstore [second]
  obtain ⟨-, -, hput⟩ := Disk.writable_of_store hstore
  have htarget : shelf.disk.target path = ["out", "x_analyze_20240229_120000.txt"] := by
    decide
  rw [hparents, htarget] at hput
  have hdirectory' : m.disk.isDirectory "out" = true := by
    rw [hdisk]
    exact (shelf.disk.store_keepsDirectories _ _).isDirectory hdirectory
  have hstore' : (m.disk.store path second.text).1 = .ok () := by
    rw [hdisk, hput]
    let filled := shelf.disk.put ["out", "x_analyze_20240229_120000.txt"]
      (.file first.text.toUTF8)
    have hparents' : filled.makeParents path = (.ok (), filled) := by
      rw [Disk.makeParents_eq (by decide) (by decide)]
      decide
    refine (Disk.store_ok_iff second.text (by rw [hparents'])).mpr ⟨hfile, ?_⟩
    rw [hparents']
    exact Disk.isDirectory_of_target (by decide)
  obtain ⟨m', hdisk', hrun'⟩ := emitAll_of_stored hdirectory' hsecond hstore' []
  have hall : run = ([⟨first, path⟩, ⟨second, path⟩], m') := by
    have hnone : (emitAll "out" []).run m' = ([], m') := rfl
    rw [hnone] at hrun'
    rw [hrun'] at hrun
    exact hrun
  rw [hall]
  refine ⟨hdirectory, rfl, ?_⟩
  rw [hdisk']
  exact (Disk.stored_of_store hstore').readText

end Delivery

end CodeReview
