import ItaniumRtti.Proofs.Elf.RoundTrip
import ItaniumRtti.Proofs.Isolation

namespace ItaniumRtti

/-!
# Addresses that no pointer can hold

The addresses of a file are numbers of a pointer's width, but an analysis computes with them: it
searches for the word two pointers after a runtime vtable, and for address points up to the end of
a block.  A search for a number that no pointer can hold ends the analysis with a fault.  It is the
only fault that a file can cause.

* `Roots.mem_points_ofImage` — the words that tell classes;
* `Elf.File.lt_span_of_mem_relocations` — relocated words lie where a pointer can reach them;
* `Elf.File.RootsInRange`, `Elf.File.BlocksInRange` — the sums that have to fit a pointer;
* `Elf.File.context_inRange` — then every search of an analysis is for a number that fits;
* `Recover.lt_span_of_discover` — discovery that returns has searched for such numbers only;
* `Elf.File.run_loaded` — the analysis of a file ends with a result if both fit, and with that
  fault if the first do not.
-/

/-! ### The words that tell classes -/

namespace Roots

/-- An assignment adds its address to the words that tell classes. -/
theorem mem_assignPoint {points : List (Int × Kind)} {address : Int} {kind : Kind} {x : Int} :
    x ∈ (assignPoint points address kind).map Prod.fst ↔
      x = address ∨ x ∈ points.map Prod.fst := by
  rw [assignPoint]
  split
  case isTrue present =>
    -- the keys stay as they are, and `address` is one of them
    have keys : (points.map fun p => if p.1 == address then (address, kind) else p).map Prod.fst =
        points.map Prod.fst := by
      rw [List.map_map]
      refine List.map_congr_left fun p _ => ?_
      by_cases same : p.1 = address <;> simp [same]
    rw [keys]
    refine (or_iff_right_of_imp ?_).symm
    rintro rfl
    obtain ⟨p, mem, same⟩ := List.any_eq_true.mp present
    exact List.mem_map.mpr ⟨p, mem, beq_iff_eq.mp same⟩
  case isFalse absent =>
    rw [List.map_append, List.mem_append, List.map_singleton, List.mem_singleton, or_comm]

/-- Assignments one after the other, of which each adds an address or does not, add those that they
    say. -/
theorem mem_foldl_points {step : List (Int × Kind) → Kind → List (Int × Kind)} {x : Int}
    {Q : Kind → Prop}
    (one : ∀ points kind,
      x ∈ (step points kind).map Prod.fst ↔ x ∈ points.map Prod.fst ∨ Q kind)
    (kinds : List Kind) (points : List (Int × Kind)) :
    x ∈ (kinds.foldl step points).map Prod.fst ↔
      x ∈ points.map Prod.fst ∨ ∃ kind ∈ kinds, Q kind := by
  induction kinds generalizing points with
  | nil => simp
  | cons kind kinds ih => rw [List.foldl_cons, ih, one, List.exists_mem_cons_iff, or_assoc]

/-- The words that tell classes lie two pointers after the runtime vtables. -/
theorem mem_points_ofImage {img : Image} {pureSymbol : Option String} {x : Int} :
    x ∈ (ofImage img pureSymbol).points.map Prod.fst ↔
      ∃ (kind : Kind) (address : Int),
        img.symbolAddress? kind.vtableSymbol = some address ∧ x = address + 2 * img.ptr := by
  rw [ofImage]
  dsimp only
  refine (mem_foldl_points (Q := fun kind => ∃ address : Int,
    img.symbolAddress? kind.vtableSymbol = some address ∧ x = address + 2 * img.ptr)
      (fun points kind => ?_) Kind.all []).trans ?_
  · cases img.symbolAddress? kind.vtableSymbol with
    | none => simp
    | some address =>
      rw [mem_assignPoint, or_comm]
      simp
  · constructor
    · rintro (none | ⟨kind, -, found⟩)
      · cases none
      · exact ⟨kind, found⟩
    · rintro ⟨kind, found⟩
      -- Every kind is tried.
      exact .inr ⟨kind, by cases kind <;> decide, found⟩

end Roots

/-! ### Searches -/

/-- A search that returns was for a number that a pointer can hold. -/
theorem Image.lt_span_of_findReferences {img : Image} {cancelled : Bool} {target : Int}
    {found : List Int} (search : img.findReferences cancelled target img.ptr = .ok found) :
    target < img.width.span := by
  rw [findReferences_eq (ne_of_gt img.ptr_pos)] at search
  -- The check is made when the bytes of the target are written; a negative target has none and is
  -- small anyway.
  cases pattern : img.referencePattern target with
  | error fault =>
    rw [pattern] at search
    cases search
  | ok bytes =>
    rw [referencePattern] at pattern
    by_cases sign : 0 ≤ target
    · rw [if_pos sign] at pattern
      have small := (needle_eq_ok_iff.mp pattern).2
      omega
    · omega

namespace Recover

variable {α β : Type}

/-- If a list of questions is answered, so is each of them. -/
theorem of_mapM_ok {f : α → Recover β} {as : List α} {known after : Knowledge} {bs : List β}
    (answered : as.mapM f known = .ok bs after) :
    ∀ a ∈ as, ∃ k b l, f a k = .ok b l := by
  induction as generalizing known after bs with
  | nil => intro a mem; cases mem
  | cons first rest ih =>
    rw [List.mapM_cons] at answered
    obtain ⟨b, k, here, answered⟩ := of_bind_ok answered
    obtain ⟨more, l, later, -⟩ := of_bind_ok answered
    intro a mem
    rcases List.mem_cons.mp mem with rfl | mem
    · exact ⟨known, b, k, here⟩
    · exact ih later a mem

/-- Discovery that scans the data and returns has found every word that tells classes small
    enough. -/
theorem lt_span_of_discover {ctx : Context} {known after : Knowledge} {classes : List TypeInfo}
    (scan : ctx.limits.scanData = true) (found : discover ctx known = .ok classes after) :
    ∀ p ∈ ctx.roots.points, p.1 < ctx.image.width.span := by
  intro p mem
  rw [discover] at found
  -- Discovery goes through the searches for all of these words, and each returned.
  obtain ⟨named, k, -, found⟩ := of_bind_ok found
  rw [if_pos scan] at found
  obtain ⟨scanned, l, scanned?, -⟩ := of_bind_ok found
  rw [scanForClasses] at scanned?
  obtain ⟨stored, m, searches, -⟩ := of_bind_ok scanned?
  obtain ⟨k, hits, l, answered⟩ := of_mapM_ok searches p mem
  obtain ⟨_, k, -, answered⟩ := of_bind_ok answered
  cases search : ctx.image.findReferences ctx.cancelled p.1 ctx.image.ptr with
  | error fault =>
    have stopped := lift_error k search
    cases stopped.symm.trans answered
  | ok hits => exact Image.lt_span_of_findReferences search

end Recover

/-! ### Relocated words -/

/-- A relocation of the index is one of the list. -/
theorem Image.mem_of_indexRelocations {relocations : List (Int × Relocation)} {address : Int}
    {r : Relocation} (found : (indexRelocations relocations)[address]? = some r) :
    (address, r) ∈ relocations := by
  -- Later entries overwrite earlier ones, so an entry of the index was added last or was there
  -- before.
  have each : ∀ (relocations : List (Int × Relocation)) (index : Std.TreeMap Int Relocation),
      (relocations.foldl (fun index r => index.insert r.1 r.2) index)[address]? = some r →
        (address, r) ∈ relocations ∨ index[address]? = some r := by
    intro relocations
    induction relocations with
    | nil => intro index; exact .inr
    | cons first rest ih =>
      intro index found
      rcases ih _ found with mem | before
      · exact .inl (List.mem_cons_of_mem _ mem)
      · rw [Std.TreeMap.getElem?_insert] at before
        split at before
        · rename_i same
          have key : first.1 = address := Std.LawfulEqCmp.eq_of_compare same
          have entry : first = (address, r) := Prod.ext key (Option.some.inj before)
          exact .inl (entry ▸ List.mem_cons_self)
        · exact .inr before
  exact (each relocations ∅ found).resolve_right fun none => by simp at none

namespace Elf

/-- A pointer can hold the address of an entry and the word that its addend was read from. -/
theorem RelocationEntry.of_ofNumbers? {width : PointerWidth} {numbers : List Nat}
    {e : RelocationEntry} (small : ∀ n ∈ numbers, n < width.span)
    (read : ofNumbers? width numbers = some e) :
    e.address < width.span ∧
      ∀ addend ∈ e.addend, ∃ n, n < width.span ∧ addend = signedValue width.bytes n := by
  rcases numbers with _ | ⟨address, _ | ⟨info, _ | ⟨addend, _ | _⟩⟩⟩ <;> cases read
  · exact ⟨small address (by simp), fun _ mem => by cases mem⟩
  · refine ⟨small address (by simp), fun _ mem => ⟨addend, small addend (by simp), ?_⟩⟩
    cases mem
    rfl

namespace File

variable {f : File}

/-- The address and the addend of a relocation entry are numbers of a pointer's width. -/
theorem of_mem_relocationEntries {s : Section} {e : RelocationEntry}
    (mem : e ∈ f.relocationEntries s) :
    e.address < f.format.width.span ∧
      ∀ addend ∈ e.addend, ∃ n, n < f.format.width.span ∧
        addend = signedValue f.format.width.bytes n := by
  -- all numbers of an entry are as wide as a pointer, with or without an addend
  have each : ∀ count : Nat,
      e ∈ (tableAt f.format f.data (List.replicate count f.format.width.bytes) s.offset s.entrySize
        s.size).filterMap (RelocationEntry.ofNumbers? f.format.width) →
      e.address < f.format.width.span ∧ ∀ addend ∈ e.addend, ∃ n, n < f.format.width.span ∧
        addend = signedValue f.format.width.bytes n := by
    intro count mem
    obtain ⟨numbers, listed, read⟩ := List.mem_filterMap.mp mem
    exact RelocationEntry.of_ofNumbers? (within_of_mem_tableAt listed).lt_of_replicate read
  rw [relocationEntries] at mem
  dsimp only at mem
  split at mem
  · exact each 3 mem
  · split at mem
    · exact each 2 mem
    · cases mem

/-- A relocation is for the word that its entry names. -/
theorem address_of_relocationOf {symbols : List SymbolEntry} {e : RelocationEntry}
    {p : Int × Relocation} (fills : f.relocationOf symbols e = some p) : p.1 = e.address := by
  rw [relocationOf] at fills
  dsimp only at fills
  split at fills
  · cases fills
  · split at fills
    · cases fills; rfl
    · split at fills
      · cases fills
      · split at fills <;> cases fills <;> rfl

/-- A pointer can hold the address of every relocated word. -/
theorem lt_span_of_mem_relocations {p : Int × Relocation} (mem : p ∈ f.relocations) :
    p.1 < f.format.width.span := by
  rw [relocations] at mem
  split at mem
  · cases mem
  · obtain ⟨s, -, mem⟩ := List.mem_flatMap.mp mem
    obtain ⟨e, listed, fills⟩ := List.mem_filterMap.mp mem
    have small := (of_mem_relocationEntries listed).1
    rw [address_of_relocationOf fills]
    omega

/-! ### Sums that have to fit a pointer -/

/-- A pointer can hold the address two pointers after every runtime vtable. -/
def RootsInRange (f : File) : Prop :=
  ∀ (kind : Kind) (address : Int), f.image.symbolAddress? kind.vtableSymbol = some address →
    address + 2 * f.image.ptr < f.image.width.span

/-- A pointer can hold the end of every block with contents. -/
def BlocksInRange (f : File) : Prop :=
  ∀ b ∈ f.blocks, b.initialized = true → b.stop < f.image.width.span

/-- The analysis of a file with the default limits. -/
def job (f : File) (demangle : Demangler) (detector : Option Detector) (wanted : Option String) :
    Job where
  image := f.image
  demangle := demangle
  detector := detector
  filter := wanted

/-- The byte order of a file is always known. -/
theorem readable : f.image.order.Known := by
  show f.format.order.Known
  rw [Format.order]
  split <;> trivial

theorem symbols_image : f.image.symbols = f.symbols :=
  rfl

/-- Symbols of a file are at no negative addresses. -/
theorem symbolAddress?_nonneg {name : String} {address : Int}
    (found : f.image.symbolAddress? name = some address) : 0 ≤ address := by
  obtain ⟨s, present, rfl⟩ := Option.map_eq_some_iff.mp found
  have mem : s ∈ f.symbols := List.mem_of_find?_eq_some present
  obtain ⟨e, -, rfl⟩ := List.mem_map.mp mem
  exact Int.natCast_nonneg e.value

/-- A program with a runtime vtable comes from a toolchain with this ABI. -/
theorem followsItaniumAbi_of_vtable {kind : Kind} {address : Int}
    (found : f.image.symbolAddress? kind.vtableSymbol = some address) :
    f.image.followsItaniumAbi = true := by
  obtain ⟨s, present, -⟩ := Option.map_eq_some_iff.mp found
  have mem := List.mem_of_find?_eq_some present
  have same := List.find?_some present
  rw [Bool.and_eq_true, beq_iff_eq] at same
  refine List.any_eq_true.mpr ⟨s, mem, ?_⟩
  rw [same.1]
  cases kind <;> decide +kernel

variable {demangle : Demangler} {detector : Option Detector} {wanted : Option String}

/-- Relocated words are at addresses that a pointer can hold. -/
theorem lt_span_of_relocationAt? {address : Int} {r : Relocation}
    (present : f.image.relocationAt? address = some r) : address < f.image.width.span :=
  lt_span_of_mem_relocations (Image.mem_of_indexRelocations present)

/-- If these sums fit, every search of an analysis is for a number that a pointer can hold. -/
theorem context_inRange (roots : f.RootsInRange) (blocks : f.BlocksInRange) :
    (f.job demangle detector wanted).context.InRange := by
  have stops : ∀ b ∈ f.image.blocks, b.initialized = true → b.stop < f.image.width.span :=
    fun b mem => blocks b (List.mem_mergeSort.mp mem)
  refine ⟨fun p mem => ?_, fun {t} identified => ?_, stops⟩
  · obtain ⟨kind, address, found, is⟩ := Roots.mem_points_ofImage.mp (List.mem_map_of_mem mem)
    rw [is]
    exact roots kind address found
  · rcases Roots.cases_of_identify identified with ⟨r, -, present, -⟩ | ⟨point, mem, resolved⟩
    · exact lt_span_of_relocationAt? present
    · cases present : f.image.relocationAt? t.address with
      | some r => exact lt_span_of_relocationAt? present
      | none =>
        -- the word is stored in a block, which has contents because the word is not zero
        have read : f.image.readPointer t.address = .ok (some point.1) := by
          rw [← resolved]
          show _ = f.image.resolve t.address
          rw [Image.resolve, present]
        obtain ⟨kind, address, found, is⟩ := Roots.mem_points_ofImage.mp (List.mem_map_of_mem mem)
        have positive : point.1 ≠ 0 := by
          have value : point.1 = address + 2 * f.image.ptr := is
          have := symbolAddress?_nonneg found
          have := f.image.ptr_pos
          omega
        obtain ⟨b, here, inside⟩ := Image.blockAt?_of_readInt read
        have stop := stops b (Image.mem_of_blockAt? here).1
          (Image.initialized_of_readPointer here read positive)
        have reach := (Block.contains_iff b _ _).mp inside
        have := f.image.ptr_pos
        show t.address < f.image.width.span
        omega

/-- The analysis of a file ends with a result unless it searches for a number that no pointer can
    hold. -/
theorem run_ends (answers : ∀ d ∈ detector, (f.job demangle detector wanted).context.Answers d) :
    (∃ h, (f.job demangle detector wanted).run.1 = .ok h) ∨
      (f.job demangle detector wanted).run.1 = .error .targetRange ∧
        ¬ (f.job demangle detector wanted).context.InRange := by
  by_cases abi : f.image.followsItaniumAbi = true
  · rcases @Job.run_ends (f.job demangle detector wanted) readable rfl Limits.fit_default abi rfl
      answers with ⟨_, _, all, -, result, -⟩ | far
    · exact .inl ⟨_, result⟩
    · exact .inr far
  · -- a program of another toolchain is not analysed at all
    have skipped : (!(f.job demangle detector wanted).image.followsItaniumAbi) = true := by
      show (!f.image.followsItaniumAbi) = true
      simpa using abi
    rw [Job.run, if_pos skipped]
    exact .inl ⟨_, rfl⟩

/-- A runtime vtable too close to the end of the address space ends every analysis that scans for
    classes. -/
theorem run_of_not_rootsInRange (far : ¬ f.RootsInRange)
    (answers : ∀ d ∈ detector, (f.job demangle detector wanted).context.Answers d) :
    (f.job demangle detector wanted).run.1 = .error .targetRange := by
  simp only [RootsInRange, not_forall, Int.not_lt] at far
  obtain ⟨kind, address, found, large⟩ := far
  have abi : f.image.followsItaniumAbi = true := followsItaniumAbi_of_vtable found
  rcases @Job.run_ends (f.job demangle detector wanted) readable rfl Limits.fit_default abi rfl
    answers with ⟨classes, known, -, discovered, -, -⟩ | ⟨stopped, -⟩
  · -- discovery has searched for the word of that vtable
    obtain ⟨all, k, scanned, -⟩ := Recover.of_bind_ok discovered
    have point : address + 2 * f.image.ptr ∈
        (f.job demangle detector wanted).context.roots.points.map Prod.fst :=
      Roots.mem_points_ofImage.mpr ⟨kind, address, found, rfl⟩
    obtain ⟨p, listed, is⟩ := List.mem_map.mp point
    have small : p.1 < f.image.width.span :=
      Recover.lt_span_of_discover rfl scanned p listed
    omega
  · exact stopped

/-- **How the analysis of a file ends.**  It ends with a result, or with the fault of a search for
    a number that no pointer can hold.  It ends with a result if a pointer can hold the word of
    every runtime vtable and the end of every block, and with that fault if it cannot hold the word
    of one of the runtime vtables. -/
theorem run_loaded (f : File) (demangle : Demangler) (detector : Option Detector)
    (wanted : Option String)
    (answers : ∀ d ∈ detector, (f.job demangle detector wanted).context.Answers d) :
    ((∃ h, (f.job demangle detector wanted).run.1 = .ok h) ∨
      (f.job demangle detector wanted).run.1 = .error .targetRange) ∧
    (f.RootsInRange → f.BlocksInRange → ∃ h, (f.job demangle detector wanted).run.1 = .ok h) ∧
    (¬ f.RootsInRange → (f.job demangle detector wanted).run.1 = .error .targetRange) := by
  have ends := run_ends answers
  refine ⟨ends.imp_right And.left, fun roots blocks => ?_, fun far => ?_⟩
  · exact ends.resolve_right fun far => far.2 (context_inRange roots blocks)
  · exact run_of_not_rootsInRange far answers

end File

/-- A file whose only symbol says that a runtime vtable begins eight bytes before the end of the
    address space. -/
def Draft.sampleFar : Draft where
  format := { width := .wide, bigEndian := false }
  ident := #v[1, 0, 0, 0, 0, 0, 0, 0, 0, 0]
  type := 3
  machine := machineX8664
  version := 1
  entry := 0
  programOffset := 0
  flags := 0
  headerSize := 64
  programStride := 0
  programCount := 0
  nameSection := 2
  gap := [0]
  parts :=
    let vtable : Name := ⟨Kind.simple.vtableSymbol, by decide +kernel⟩
    [.null,
      { Part.null with
        link := 2, info := 1, alignment := 8,
        body := .symbols false
          [.null,
            { name := vtable, nameOffset := 1, value := 0xfffffffffffffff8, size := 0,
              info := 0x11, other := 0, sectionIndex := 0xfff1 }] },
      { Part.null with alignment := 1, body := .strings (0 :: vtable.bytes ++ [0]) }]

/-- Its numbers fit their fields. -/
theorem Draft.valid_sampleFar : Draft.sampleFar.Valid where
  header := by decide +kernel
  table := by decide +kernel
  symbols := by decide +kernel
  relocations := by decide +kernel
  nameSection := by decide
  names := by decide +kernel
  symbolNames := by decide +kernel

/-- The file is accepted and can be loaded, but its analysis ends with the fault. -/
theorem File.run_loaded_sampleFar :
    ∃ f, File.parse? Draft.sampleFar.write = some f ∧ f.isRelocatable = false ∧
      ¬ f.RootsInRange ∧ (f.job (fun _ => none) none none).run.1 = .error .targetRange := by
  -- The symbols are taken from the draft: reading them out of the written bytes would take the
  -- kernel long.
  have symbols : Draft.sampleFar.file.symbols = Draft.sampleFar.symbols :=
    Draft.symbols_file Draft.valid_sampleFar
  have found : Draft.sampleFar.file.image.symbolAddress? Kind.simple.vtableSymbol =
      some 0xfffffffffffffff8 := by
    rw [Image.symbolAddress?, File.symbols_image, symbols]
    decide +kernel
  have far : ¬ Draft.sampleFar.file.RootsInRange := by
    intro inRange
    have small : (0xfffffffffffffff8 : Int) + 2 * 8 < (Nat.pow 256 8 : Nat) :=
      inRange .simple _ found
    exact absurd small (by decide)
  refine ⟨_, Draft.parse?_eq Draft.valid_sampleFar, by decide +kernel, far, ?_⟩
  exact (File.run_loaded _ _ none none (by simp)).2.2 far

end Elf

end ItaniumRtti
