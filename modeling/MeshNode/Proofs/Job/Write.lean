import MeshNode.Job.Execution
import MeshNode.Proofs.Jail

/-!
# Writes and the jail

A write changes nothing unless its path resolves, and then it places a file at the location that
the path resolves to. As long as the way there is straight, all of it is below the jail. It is
straight whenever the path from the root of the tree can be looked up. A longer path can lead a
write out of the jail (`LeadsAstray`), and this is the only way out.
-/

namespace MeshNode

namespace Job

open FileTree (maxPath SameOutside)

variable {jail : Jail} {t t' : FileTree} {args : WriteArgs} {l : Location} {content : Bytes}

/-! ### Writes -/

/-- A write comes to placing a file. -/
structure Places (jail : Jail) (t : FileTree) (args : WriteArgs) (l : Location)
    (content : Bytes) : Prop where
  decode : Base64.Dialect.file.decode (.ofText (Text.trim args.content)) = .ok content
  resolve : jail.resolve t args.path = .ok l
  ne_root : l ≠ jail.root

/-- A write does what placing its file does. -/
theorem Places.run_write (h : Places jail t args l content) :
    Files.run (write jail args) t =
      ((Files.run (Files.place l content) t).1.mapError SandboxError.file |>.map fun _ =>
          .obj [("bytes_written", .nat content.length), ("path", .str (jail.shown l)),
            ("sha256", .str (Digest.ofContent content))],
        (Files.run (Files.place l content) t).2) := by
  have hplace : Files.run (Files.mapError SandboxError.file do
      Files.makeDirs l.dropLast
      Files.writeBytes l content) t =
        ((Files.run (Files.place l content) t).1.mapError .file,
          (Files.run (Files.place l content) t).2) :=
    Files.run_mapError _ _ t
  unfold write
  simp only [h.decode, Files.run_bind, Files.run_inspect, h.resolve, if_neg h.ne_root,
    Files.run_pure]
  rw [hplace]
  rcases Files.run (Files.place l content) t with ⟨_ | ⟨⟩, t'⟩ <;> rfl

/-- A write that does not come to placing a file changes nothing. -/
theorem run_write_of_not_places (h : ∀ l content, ¬ Places jail t args l content) :
    (Files.run (write jail args) t).2 = t := by
  unfold write
  cases hdecode : Base64.Dialect.file.decode (.ofText (Text.trim args.content)) with
  | error e => rfl
  | ok content =>
    simp only [Files.run_bind, Files.run_inspect]
    cases hresolve : jail.resolve t args.path with
    | error e => rfl
    | ok l =>
      have hroot : l = jail.root := not_not.mp fun hne => h l content ⟨hdecode, hresolve, hne⟩
      simp [hroot]

/-! ### Containment -/

/-- A write is led out of the jail: its path from the root of the tree is too long to be looked up,
and the file it comes to placing changes the tree outside first. -/
def LeadsAstray (jail : Jail) (t : FileTree) (args : WriteArgs) : Prop :=
  ∃ names l content q, Jail.normalize args.path = some names ∧
    maxPath < Path.byteLength (jail.root ++ names) ∧ Places jail t args l content ∧
    t.FirstChange l content q ∧ ¬ jail.root <+: q

/-- A write changes nothing outside the jail exactly if it is not led out. -/
theorem write_contained_iff (hformed : t.WellFormed) (hroot : t.get? jail.root = some .dir) :
    SameOutside jail.root t (Files.run (write jail args) t).2 ↔ ¬ LeadsAstray jail t args := by
  by_cases hplaces : ∃ l content, Places jail t args l content
  · obtain ⟨l, content, hplaces⟩ := hplaces
    have hplain := Jail.plain_of_resolve hformed hroot hplaces.resolve
    rw [hplaces.run_write, FileTree.sameOutside_place_iff hformed.rooted hplain]
    constructor
    · rintro hinside ⟨names, l', content', q, -, -, hplaces', hchange, hout⟩
      obtain rfl := Except.ok.inj (hplaces.resolve.symm.trans hplaces'.resolve)
      obtain rfl := Except.ok.inj (hplaces.decode.symm.trans hplaces'.decode)
      exact hout (hinside q hchange)
    · intro hastray q hchange
      by_contra hout
      obtain ⟨names, found, hnames, -, -, hbelow⟩ := Jail.exists_of_resolve hplaces.resolve
      refine hastray ⟨names, l, content, q, hnames, ?_, hplaces, hchange, hout⟩
      -- Were the path short enough, the way would be straight and the first change inside.
      by_contra hshort
      have hstraight := Jail.straight_of_resolve hformed hroot hnames (Nat.le_of_not_lt hshort)
        hplaces.resolve
      exact hout (hchange.below hformed.rooted hroot hbelow hstraight hplain)
  · have hnone : ∀ l content, ¬ Places jail t args l content := fun l content h =>
      hplaces ⟨l, content, h⟩
    rw [run_write_of_not_places hnone]
    refine iff_of_true (.refl jail.root t) ?_
    rintro ⟨names, l, content, q, -, -, h, -⟩
    exact hnone l content h

/-- A write that fails with anything but an error of the files changes nothing. -/
theorem run_write_eq_of_error {e : SandboxError} (h : (Files.run (write jail args) t).1 = .error e)
    (hfile : ∀ error, e ≠ .file error) : (Files.run (write jail args) t).2 = t := by
  refine run_write_of_not_places fun l content hplaces => ?_
  rw [hplaces.run_write] at h
  rcases hrun : Files.run (Files.place l content) t with ⟨error | _, t'⟩
  · rw [hrun] at h
    exact hfile error (Except.error.inj h).symm
  · rw [hrun] at h
    cases h

theorem execute_write_of_args {args : Json} {a : WriteArgs}
    (hargs : readArgs .write WriteArgs.decoder args = .ok a) (timeoutMillis : Nat)
    (nowMillis : Int) :
    execute jail "write" args timeoutMillis nowMillis t = outcome (write jail a) t := by
  have hkind : execute jail "write" args timeoutMillis nowMillis t =
      executeKind jail .write args timeoutMillis nowMillis t := rfl
  rw [hkind, executeKind, hargs]

theorem execute_write_of_error {args : Json} {e : SandboxError}
    (hargs : readArgs .write WriteArgs.decoder args = .error e) (timeoutMillis : Nat)
    (nowMillis : Int) :
    execute jail "write" args timeoutMillis nowMillis t = (.ofError e, t) := by
  have hkind : execute jail "write" args timeoutMillis nowMillis t =
      executeKind jail .write args timeoutMillis nowMillis t := rfl
  rw [hkind, executeKind, hargs]

/-- **Writes stay in the jail.** Whatever the files are below and beside a jail, and whatever a
write is asked to do, it changes nothing outside the jail unless its path is too long to be looked
up and leads it astray. Only if it is completed or an operation on the files fails does it change
anything at all. -/
theorem execute_write_contained (hformed : t.WellFormed) (hroot : t.get? jail.root = some .dir)
    {args : Json} {timeoutMillis : Nat} {nowMillis : Int} {o : JobOutcome}
    (hexecute : execute jail "write" args timeoutMillis nowMillis t = (o, t')) :
    (SameOutside jail.root t t' ↔
      ∀ a, readArgs .write WriteArgs.decoder args = .ok a → ¬ LeadsAstray jail t a) ∧
    ((∀ value, o ≠ .completed value) → (∀ message, o ≠ .failed "IO_ERROR" message) → t' = t) := by
  cases hargs : readArgs .write WriteArgs.decoder args with
  | error e =>
    rw [execute_write_of_error hargs] at hexecute
    obtain rfl : t = t' := congrArg Prod.snd hexecute
    exact ⟨iff_of_true (.refl jail.root t) (by rintro _ ⟨⟩), fun _ _ => rfl⟩
  | ok a =>
    rw [execute_write_of_args hargs, outcome] at hexecute
    have hcontained : SameOutside jail.root t (Files.run (write jail a) t).2 ↔
        ¬ LeadsAstray jail t a := write_contained_iff hformed hroot
    have hastray : (∀ b, Except.ok a = (Except.ok b : Except SandboxError WriteArgs) →
        ¬ LeadsAstray jail t b) ↔ ¬ LeadsAstray jail t a :=
      ⟨fun h => h a rfl, fun h _ heq => Except.ok.inj heq ▸ h⟩
    rw [hastray]
    rcases hrun : Files.run (write jail a) t with ⟨e | value, t₁⟩
    · rw [hrun] at hexecute hcontained
      obtain rfl : .ofError e = o := congrArg Prod.fst hexecute
      obtain rfl : t₁ = t' := congrArg Prod.snd hexecute
      refine ⟨hcontained, fun _ hio => ?_⟩
      have hsame := run_write_eq_of_error (e := e) (by rw [hrun]) fun error heq => ?_
      · rwa [hrun] at hsame
      · exact hio _ (by rw [heq]; rfl)
    · rw [hrun] at hexecute hcontained
      obtain rfl : .completed value = o := congrArg Prod.fst hexecute
      obtain rfl : t₁ = t' := congrArg Prod.snd hexecute
      exact ⟨hcontained, fun hcompleted _ => absurd rfl (hcompleted value)⟩

/-! ### A trap -/

section Trap

open MeshNode.Path (IsName)

/-- A name as long as names can be. -/
private def longName : String := String.ofList (List.replicate 255 'a')

/-- A jail with a link back to the jail and a link out of it. -/
private def trap : FileTree :=
  ⟨[(["jail"], .dir), (["outside"], .dir), (["jail", longName], .link "."),
    (["jail", "evil"], .link "/outside")]⟩

private theorem utf8ByteSize_longName : longName.utf8ByteSize = 255 := by
  have hreplicate (n : Nat) : (String.ofList (List.replicate n 'a')).utf8ByteSize = n := by
    induction n with
    | zero => rfl
    | succ n ih =>
      rw [List.replicate_succ, ← List.singleton_append, String.ofList_append,
        String.utf8ByteSize_append, ih, Nat.add_comm]
      rfl
  exact hreplicate 255

private theorem longName_ne {name : String} (hsize : name.utf8ByteSize ≠ 255) : longName ≠ name :=
  fun heq => hsize (heq ▸ utf8ByteSize_longName)

private theorem not_mem_longName {ch : Char} (hne : ch ≠ 'a') : ch ∉ longName.toList := by
  have hreplicate (n : Nat) : ch ∉ (String.ofList (List.replicate n 'a')).toList := by
    rw [String.toList_ofList]
    exact fun hmem => hne (List.eq_of_mem_replicate hmem)
  exact hreplicate 255

private theorem isName_longName : IsName longName :=
  ⟨⟨longName_ne (by decide), longName_ne (by decide), longName_ne (by decide)⟩,
    Nat.le_of_eq utf8ByteSize_longName, not_mem_longName (by decide)⟩

private theorem get?_trap_back : trap.get? (["jail"] ++ [longName]) = some (.link ".") := by
  simp [FileTree.get?, trap, List.lookup_cons]

private theorem get?_trap_out : trap.get? (["jail"] ++ ["evil"]) = some (.link "/outside") := by
  have hne : ("evil" == longName) = false := beq_eq_false_iff_ne.mpr (longName_ne (by decide)).symm
  simp [FileTree.get?, trap, List.lookup_cons, hne]

private theorem wellFormed_trap : trap.WellFormed := by
  have hevil : IsName "jail" ∧ IsName "outside" ∧ IsName "evil" := by decide
  refine FileTree.wellFormed_of_forall_mem fun x hx => ?_
  simp only [trap, List.mem_cons, List.not_mem_nil, or_false] at hx
  rcases hx with rfl | rfl | rfl | rfl
  · exact ⟨rfl, by simpa using hevil.1⟩
  · exact ⟨rfl, by simpa using hevil.2.1⟩
  · exact ⟨rfl, by simpa using isName_longName⟩
  · exact ⟨rfl, by simpa using hevil.2.2⟩

private theorem walk_trap_back {follow : Bool} (k links : Nat) (rest : Path)
    (hrest : rest ≠ [] ∨ follow = true) :
    trap.walk follow (k + links) ["jail"] (List.replicate k longName ++ rest) =
      trap.walk follow links ["jail"] rest := by
  induction k with
  | zero => rw [Nat.zero_add, List.replicate_zero, List.nil_append]
  | succ k ih =>
    -- Each time one link is used up, and the place is the jail again.
    have hrest' : List.replicate k longName ++ rest ≠ [] ∨ follow = true :=
      hrest.imp_left (List.append_ne_nil_of_right_ne_nil _)
    have hdot : Path.pieces "." = ["."] := by decide
    rw [Nat.succ_add, List.replicate_succ, List.cons_append,
      FileTree.walk_of_link isName_longName get?_trap_back hrest', hdot, List.singleton_append,
      FileTree.walk_of_blank (Or.inr rfl)]
    exact ih

private theorem walk_trap_out {follow : Bool} (links : Nat) {rest : Path}
    (hrest : rest ≠ [] ∨ follow = true) :
    trap.walk follow (links + 1) ["jail"] ("evil" :: rest) =
      trap.walk follow links ["outside"] rest := by
  have hevil : IsName "evil" ∧ IsName "outside" := by decide
  have hpieces : Path.pieces "/outside" = ["", "outside"] := by decide
  rw [FileTree.walk_of_link hevil.1 get?_trap_out hrest, hpieces]
  exact (FileTree.walk_of_blank (Or.inl rfl)).trans (FileTree.walk_of_dir hevil.2 rfl)

private theorem locate_trap_back :
    trap.locate true ("jail" :: List.replicate 15 longName) = .ok ⟨["jail"], some .dir⟩ := by
  have hjail : IsName "jail" := by decide
  have hnames : ∀ c ∈ "jail" :: List.replicate 15 longName, IsName c := by
    intro c hc
    rcases List.mem_cons.mp hc with rfl | hc
    · exact hjail
    · exact List.eq_of_mem_replicate hc ▸ isName_longName
  have hshort : Path.byteLength ("jail" :: List.replicate 15 longName) ≤ maxPath := by
    simp only [List.replicate, Path.byteLength, List.foldr, utf8ByteSize_longName]
    decide
  have hdir : trap.walk true 40 [] ("jail" :: List.replicate 15 longName) =
      trap.walk true 40 ["jail"] (List.replicate 15 longName) :=
    FileTree.walk_of_dir hjail rfl
  have hback : trap.walk true 40 ["jail"] (List.replicate 15 longName ++ []) =
      trap.walk true 25 ["jail"] [] := walk_trap_back 15 25 [] (Or.inr rfl)
  rw [List.append_nil] at hback
  rw [FileTree.locate_of_names hnames hshort]
  exact hdir.trans (hback.trans rfl)

/-- The names on the way out: back to the jail until the path is too long, and then out. -/
private def detour : List String := List.replicate 16 longName ++ ["evil", "x"]

private theorem long_detour : maxPath < Path.byteLength (["jail"] ++ detour) := by
  simp only [detour, List.replicate, List.cons_append, List.nil_append, Path.byteLength,
    List.foldr, utf8ByteSize_longName]
  decide

private theorem normalize_detour : Jail.normalize ("/".intercalate detour) = some detour := by
  have hnames : ∀ c ∈ detour, Path.Plain c ∧ '/' ∉ c.toList := by
    intro c hc
    have hshort : ∀ c ∈ ["evil", "x"], Path.Plain c ∧ '/' ∉ c.toList := by decide
    rcases List.mem_append.mp hc with hc | hc
    · exact List.eq_of_mem_replicate hc ▸ ⟨isName_longName.1, not_mem_longName (by decide)⟩
    · exact hshort c hc
  exact Jail.normalize_intercalate (by simp [detour]) (fun c hc => (hnames c hc).1)
    fun c hc => (hnames c hc).2

private theorem resolve_trap :
    (Jail.mk ["jail"]).resolve trap ("/".intercalate detour) =
      .ok ["jail", longName, "evil", "x"] := by
  have hreal : trap.realLocation ("jail" :: List.replicate 15 longName) = .ok ["jail"] := by
    rw [FileTree.realLocation, FileTree.stat, locate_trap_back]
    rfl
  have hentry : trap.hasEntry ("jail" :: List.replicate 15 longName) = true := by
    obtain ⟨l, e, hlocate⟩ := FileTree.exists_locate_false locate_trap_back
    rw [FileTree.hasEntry, FileTree.stat, hlocate]
    rfl
  -- Fifteen of the long names can be looked up, and sixteen cannot.
  have hlong : maxPath < Path.byteLength ("jail" :: List.replicate 15 longName ++ [longName]) := by
    simp only [List.replicate, List.cons_append, List.nil_append, Path.byteLength, List.foldr,
      utf8ByteSize_longName]
    decide
  have hne : detour ≠ [] := by simp [detour]
  have hexisting : (Jail.mk ["jail"]).existingInside trap detour =
      ("jail" :: List.replicate 15 longName, [longName, "evil", "x"]) := by
    have happend (c : String) : ["jail"] ++ (List.replicate 16 c ++ ["evil", "x"]) =
        "jail" :: List.replicate 15 c ++ c :: ["evil", "x"] := rfl
    rw [Jail.existingInside, if_neg fun hnil => hne hnil.1, detour, happend longName]
    exact Jail.existingPart_of_long hentry hlong ["evil", "x"]
  have hlink : trap.isLink (["jail"] ++ detour) = false :=
    (FileTree.hasEntry_of_long long_detour).2
  exact Jail.resolve_of_existing normalize_detour hexisting hreal (by simp) hlink

private theorem locate_trap_out {follow : Bool} (rest : Path) (hrest : rest ≠ [] ∨ follow = true)
    (hnames : ∀ c ∈ rest, IsName c)
    (hshort : Path.byteLength (["jail", longName, "evil"] ++ rest) ≤ maxPath) :
    trap.locate follow (["jail", longName, "evil"] ++ rest) =
      trap.walk follow 38 ["outside"] rest := by
  have hnames' : IsName "jail" ∧ IsName "evil" := by decide
  rw [FileTree.locate_of_names _ hshort]
  · have hjail : trap.walk follow 40 [] ("jail" :: longName :: "evil" :: rest) =
        trap.walk follow 40 ["jail"] (longName :: "evil" :: rest) :=
      FileTree.walk_of_dir hnames'.1 rfl
    exact hjail.trans ((walk_trap_back 1 39 _ (Or.inl (by simp))).trans (walk_trap_out 38 hrest))
  · intro c hc
    simp only [List.cons_append, List.nil_append, List.mem_cons] at hc
    rcases hc with rfl | rfl | rfl | hc
    · exact hnames'.1
    · exact isName_longName
    · exact hnames'.2
    · exact hnames c hc

private theorem short_way_out :
    Path.byteLength ["jail", longName, "evil", "x"] ≤ maxPath := by
  simp only [Path.byteLength, List.foldr, utf8ByteSize_longName]
  decide

private theorem leadsAstray_trap :
    LeadsAstray ⟨["jail"]⟩ trap ⟨"/".intercalate detour, "aGVsbG8="⟩ := by
  have hdir : trap.isDir ["jail", longName, "evil"] = true := by
    have hshort : Path.byteLength (["jail", longName, "evil"] ++ []) ≤ maxPath :=
      Nat.le_trans (Path.byteLength_le_append _ ["x"]) short_way_out
    have hlocate :=
      locate_trap_out [] (Or.inr rfl) (fun c hc => absurd hc List.not_mem_nil) hshort
    rw [List.append_nil] at hlocate
    rw [FileTree.isDir, FileTree.stat, hlocate]
    rfl
  have hx : ∀ c ∈ ["x"], IsName c := by decide
  have hlocate : trap.locate false ["jail", longName, "evil", "x"] = .ok ⟨["outside", "x"], none⟩ :=
    (locate_trap_out ["x"] (Or.inl (by simp)) hx short_way_out).trans rfl
  have hwritten : trap.locateToWrite ["jail", longName, "evil", "x"] =
      .ok ⟨["outside", "x"], none⟩ :=
    FileTree.locateToWrite_of_name (p := ["jail", longName, "evil"]) (by decide) (by rintro q ⟨⟩)
      hlocate
  refine ⟨detour, ["jail", longName, "evil", "x"], .ofText "hello", ["outside", "x"],
    normalize_detour, long_detour, ⟨by decide, resolve_trap, by simp⟩,
    .newFile hdir hwritten, by decide⟩

/-- What a write is asked to do, as JSON. -/
private def request (path content : String) : Json :=
  .obj [("content_b64", .str content), ("path", .str path)]

private theorem readArgs_request (path content : String) :
    readArgs .write WriteArgs.decoder (request path content) = .ok ⟨path, content⟩ := rfl

/-- A write through the link out of the jail is contained. -/
theorem execute_write_contained_through_link :
    trap.WellFormed ∧ trap.get? ["jail"] = some .dir ∧
      SameOutside ["jail"] trap
        (execute ⟨["jail"]⟩ "write" (request "evil/x" "aGVsbG8=") 1000 0 trap).2 := by
  have hnames : Jail.normalize "evil/x" = some ["evil", "x"] := by decide
  have hshort : ¬ maxPath < Path.byteLength (["jail"] ++ ["evil", "x"]) := by decide
  refine ⟨wellFormed_trap, rfl, ?_⟩
  refine (execute_write_contained wellFormed_trap rfl (Prod.eta _).symm).1.mpr fun a hargs => ?_
  obtain rfl := Except.ok.inj ((readArgs_request "evil/x" "aGVsbG8=").symm.trans hargs)
  rintro ⟨names, l, content, q, hnames', hlong, -⟩
  obtain rfl := Option.some.inj (hnames.symm.trans hnames')
  exact hshort hlong

/-- **A path that is too long to be looked up can lead a write out of the jail.** -/
theorem execute_write_not_contained :
    ¬ ∀ (jail : Jail) (t : FileTree) (args : Json) (timeoutMillis : Nat) (nowMillis : Int),
      t.WellFormed → t.get? jail.root = some .dir →
        SameOutside jail.root t (execute jail "write" args timeoutMillis nowMillis t).2 := by
  intro hall
  have hsame := hall ⟨["jail"]⟩ trap (request ("/".intercalate detour) "aGVsbG8=") 1000 0
    wellFormed_trap rfl
  have houtcome : (outcome (write ⟨["jail"]⟩ ⟨"/".intercalate detour, "aGVsbG8="⟩) trap).2 =
      (Files.run (write ⟨["jail"]⟩ ⟨"/".intercalate detour, "aGVsbG8="⟩) trap).2 := by
    rw [outcome]
    split <;> rename_i hrun <;> rw [hrun]
  rw [execute_write_of_args (readArgs_request _ _), houtcome] at hsame
  exact (write_contained_iff wellFormed_trap rfl).mp hsame leadsAstray_trap

end Trap

end Job

end MeshNode
