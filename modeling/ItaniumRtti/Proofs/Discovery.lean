import ItaniumRtti.Analysis.Discover
import ItaniumRtti.Proofs.Recover

namespace ItaniumRtti

/-!
# Discovery is exact

Discovery never looks at a word twice the way recognition does: it collects the addresses of
symbols, searches the bytes of each runtime vtable's address point, and lists the relocations that
name one.  What it returns is nevertheless what recognition would find at every place it covers.

* `Context.Discoverable` — the places that discovery covers;
* `Recover.scanForClasses_spec` — what the scan of the data finds;
* `Recover.discover_exact` — discovery returns the classes at discoverable places, by address.
-/

/-- The places that discovery covers: the addresses of defined symbols whose names begin with
    `start` and, if the data are scanned, the words relocated against a runtime vtable and the
    aligned words outside the code that are stored or relocated. -/
def Context.Discoverable (ctx : Context) (start : String) (address : Int) : Prop :=
  (∃ s ∈ ctx.image.symbols, s.defined = true ∧ start.toList <+: s.name.toList ∧
    s.address = address) ∨
  ctx.limits.scanData = true ∧
    ((∃ r kind, ctx.image.relocationAt? address = some r ∧
        r.symbol = some (Kind.vtableSymbol kind)) ∨
      address % ctx.image.ptr = 0 ∧ ctx.image.DataWord address)

/-! ### Recognition by name and by value -/

/-- A symbol tells a kind exactly if it is that of a runtime vtable. -/
theorem Kind.ofVtableSymbol?_isSome_iff (symbol : String) :
    (Kind.ofVtableSymbol? symbol).isSome = true ↔ ∃ kind, symbol = Kind.vtableSymbol kind := by
  rw [Kind.ofVtableSymbol?, List.find?_isSome]
  constructor
  · rintro ⟨kind, -, same⟩
    exact ⟨kind, (beq_iff_eq.mp same).symm⟩
  · rintro ⟨kind, rfl⟩
    refine ⟨kind, ?_, beq_self_eq_true _⟩
    cases kind <;> decide

/-- A word is recognised by the runtime vtable that its relocation names, or by its value. -/
theorem Roots.cases_of_identify {roots : Roots} {img : Image} {address : Int} {t : TypeInfo}
    (found : roots.identify img address = .ok (some t)) :
    (∃ r kind, img.relocationAt? address = some r ∧ r.symbol = some (Kind.vtableSymbol kind)) ∨
      ∃ point ∈ roots.points, img.resolve address = .ok (some point.1) := by
  rw [identify] at found
  split at found
  · cases found
  · rw [kindOf] at found
    -- The symbol is decisive where there is one.
    cases relocation : (img.relocationAt? address).bind (·.symbol) with
    | some symbol =>
      left
      obtain ⟨r, present, named⟩ := Option.bind_eq_some_iff.mp relocation
      simp only [relocation, Except.ok.injEq, Option.map_eq_some_iff] at found
      obtain ⟨kind, recognised, -⟩ := found
      have some : (Kind.ofVtableSymbol? symbol).isSome = true :=
        Option.isSome_iff_exists.mpr ⟨kind, recognised⟩
      obtain ⟨kind, rfl⟩ := (Kind.ofVtableSymbol?_isSome_iff symbol).mp some
      exact ⟨r, kind, present, named⟩
    | none =>
      right
      cases resolved : img.resolve address with
      | error fault => simp only [relocation, resolved, reduceCtorEq] at found
      | ok value =>
        simp only [relocation, resolved, Except.ok.injEq, Option.map_eq_some_iff] at found
        obtain ⟨kind, recognised, -⟩ := found
        obtain ⟨point, rfl, leads⟩ := Option.bind_eq_some_iff.mp recognised
        obtain ⟨before, after, split, -⟩ := List.lookup_eq_some_iff.mp leads
        refine ⟨(point, kind), ?_, rfl⟩
        rw [split]
        exact List.mem_append_right before (List.mem_cons_self ..)

namespace Recover

variable {ctx : Context}

/-! ### The scan -/

/-- A reference search for each of `points` finds the data words that resolve to one of them. -/
theorem searchEach_spec (tidy : ctx.image.Tidy) (readable : ctx.image.order.Known)
    (running : ctx.cancelled = false) (points : List (Int × Kind))
    (fit : ∀ p ∈ points, p.1 < ctx.image.width.span) (known : Knowledge) :
    ∃ found : List (List Int),
      (points.mapM fun (point, _) => do
        checkCancelled ctx
        lift (ctx.image.findReferences ctx.cancelled point ctx.image.ptr) :
          Recover (List (List Int))) known = .ok found known ∧
      ∀ address, address ∈ found.flatten ↔
        (∃ p ∈ points, ctx.image.resolve address = .ok (some p.1)) ∧
          address % ctx.image.ptr = 0 ∧ ctx.image.DataWord address := by
  -- One search for each point, and none of them changes what is known.
  induction points with
  | nil =>
    refine ⟨[], rfl, fun address => ?_⟩
    simp only [List.flatten_nil, List.not_mem_nil, false_and, exists_false]
  | cons p rest ih =>
    obtain ⟨more, scanned, others⟩ := ih fun q member => fit q (List.mem_cons_of_mem p member)
    obtain ⟨here, search, -, members⟩ := Image.findReferences_spec tidy readable
      (fit p (List.mem_cons_self ..)) (ne_of_gt ctx.image.ptr_pos)
    refine ⟨here :: more, ?_, fun address => ?_⟩
    · rw [List.mapM_cons]
      refine (bind_ok (a := here) ?_).trans (bind_ok scanned)
      show (checkCancelled ctx >>= fun _ => lift _) known = _
      rw [checkCancelled_running running, pure_bind, running]
      exact lift_ok known search
    · rw [List.flatten_cons, List.mem_append, members, others, List.exists_mem_cons_iff]
      tauto

/-- The scan finds the words relocated against a runtime vtable, and the aligned data words that
    resolve to the address point of one. -/
theorem scanForClasses_spec (tidy : ctx.image.Tidy) (readable : ctx.image.order.Known)
    (running : ctx.cancelled = false) (fit : ∀ p ∈ ctx.roots.points, p.1 < ctx.image.width.span)
    (known : Knowledge) :
    ∃ found, scanForClasses ctx known = .ok found known ∧
      ∀ address, address ∈ found ↔
        (∃ r kind, ctx.image.relocationAt? address = some r ∧
          r.symbol = some (Kind.vtableSymbol kind)) ∨
        (∃ p ∈ ctx.roots.points, ctx.image.resolve address = .ok (some p.1)) ∧
          address % ctx.image.ptr = 0 ∧ ctx.image.DataWord address := by
  obtain ⟨stored, search, members⟩ := searchEach_spec tidy readable running _ fit known
  refine ⟨_, bind_ok search, fun address => ?_⟩
  rw [List.mem_append, members, or_comm]
  -- The other half are the relocated words, which are read off the list.
  refine or_congr_left ?_
  simp only [List.mem_map, List.mem_filter, Prod.exists, Image.mem_relocationList]
  constructor
  · rintro ⟨_, r, ⟨present, named⟩, rfl⟩
    obtain ⟨recognised, found⟩ := Option.isSome_iff_exists.mp named
    obtain ⟨symbol, name, is⟩ := Option.bind_eq_some_iff.mp found
    obtain ⟨kind, rfl⟩ :=
      (Kind.ofVtableSymbol?_isSome_iff symbol).mp (Option.isSome_iff_exists.mpr ⟨recognised, is⟩)
    exact ⟨r, kind, present, name⟩
  · rintro ⟨r, kind, present, name⟩
    refine ⟨address, r, ⟨present, ?_⟩, rfl⟩
    rw [name]
    exact (Kind.ofVtableSymbol?_isSome_iff _).mpr ⟨kind, rfl⟩

/-! ### The classes found -/

/-- Recognition at each of `addresses` in turn. -/
theorem classesAmong_spec (readable : ctx.image.order.Known) (running : ctx.cancelled = false)
    (addresses : List Int) (known : Knowledge) :
    ∃ classes after, classesAmong ctx addresses known = .ok classes after ∧
      (classes.map (·.address)).Sublist addresses ∧
      ∀ t, t ∈ classes ↔
        t.address ∈ addresses ∧ ctx.roots.identify ctx.image t.address = .ok (some t) := by
  induction addresses generalizing known with
  | nil =>
    refine ⟨[], known, rfl, List.Sublist.slnil, fun t => ?_⟩
    simp only [List.not_mem_nil, false_and]
  | cons address rest ih =>
    obtain ⟨found, identified⟩ := ctx.roots.identify_ok readable address
    -- A class that is recognised is met before the rest is looked at.
    obtain ⟨more, after, recognised, sublist, members⟩ := ih (found.elim known known.meet)
    refine ⟨found.toList ++ more, after, ?_, ?_, fun t => ?_⟩
    · rw [classesAmong, checkCancelled_running running, pure_bind,
        bind_ok (classAt?_of_identify identified known), bind_ok recognised]
      rfl
    · cases found with
      | none => exact sublist.cons address
      | some t =>
        rw [← Roots.address_of_identify identified]
        exact sublist.cons_cons t.address
    · rw [List.mem_append, members, List.mem_cons, Option.mem_toList]
      constructor
      · rintro (rfl | ⟨later, is⟩)
        · rw [Roots.address_of_identify identified]
          exact ⟨.inl rfl, identified⟩
        · exact ⟨.inr later, is⟩
      · rintro ⟨rfl | later, is⟩
        · rw [identified, Except.ok.injEq] at is
          exact .inl is
        · exact .inr ⟨later, is⟩

/-- **Discovery is exact.**  In a tidy image whose root address points fit in a pointer, discovery
    returns in increasing address order, each once, exactly the classes that recognition finds at
    discoverable places. -/
theorem discover_exact (ctx : Context) (tidy : ctx.image.Tidy) (readable : ctx.image.order.Known)
    (running : ctx.cancelled = false) (fit : ∀ p ∈ ctx.roots.points, p.1 < ctx.image.width.span)
    (start : String) (symbols : ctx.limits.typeInfoSymbolPrefix = some start)
    (known : Knowledge) :
    ∃ classes after, discover ctx known = .ok classes after ∧
      classes.Pairwise (fun s t => s.address < t.address) ∧
      ∀ t, t ∈ classes ↔
        ctx.roots.identify ctx.image t.address = .ok (some t) ∧
          ctx.Discoverable start t.address := by
  obtain ⟨scanned, scan, places⟩ : ∃ scanned,
      (if ctx.limits.scanData = true then scanForClasses ctx else pure []) known =
        .ok scanned known ∧
      ∀ address, address ∈ scanned ↔ ctx.limits.scanData = true ∧
        ((∃ r kind, ctx.image.relocationAt? address = some r ∧
          r.symbol = some (Kind.vtableSymbol kind)) ∨
        (∃ p ∈ ctx.roots.points, ctx.image.resolve address = .ok (some p.1)) ∧
          address % ctx.image.ptr = 0 ∧ ctx.image.DataWord address) := by
    split
    · next on =>
      obtain ⟨found, scan, members⟩ := scanForClasses_spec tidy readable running fit known
      exact ⟨found, scan, fun address => by rw [members, and_iff_right on]⟩
    · next off =>
      refine ⟨[], rfl, fun address => ?_⟩
      rw [iff_false_right fun on => off on.1]
      exact List.not_mem_nil
  have named : namedClasses ctx = .ok ((ctx.image.symbolsWithPrefix start).map (·.address)) := by
    rw [namedClasses, symbols]
  obtain ⟨classes, after, recognised, sublist, members⟩ := classesAmong_spec readable running
    (Image.addressSet ((ctx.image.symbolsWithPrefix start).map (·.address) ++ scanned)) known
  refine ⟨classes, after, ?_, ?_, fun t => ?_⟩
  · rw [discover, bind_ok (lift_ok known named), ite_bind, bind_ok scan]
    exact recognised
  · exact List.pairwise_map.mp ((Image.pairwise_addressSet _).sublist sublist)
  rw [members, Image.mem_addressSet, List.mem_append, places, and_comm]
  refine and_congr_right fun is => ?_
  have symbol : t.address ∈ (ctx.image.symbolsWithPrefix start).map (·.address) ↔
      ∃ s ∈ ctx.image.symbols, s.defined = true ∧ start.toList <+: s.name.toList ∧
        s.address = t.address := by
    simp only [Image.symbolsWithPrefix, List.mem_map, List.mem_filter, Bool.and_eq_true, hasPrefix,
      List.isPrefixOf_iff_prefix, and_assoc]
  rw [symbol, Context.Discoverable]
  refine or_congr_right (and_congr_right fun _ => ?_)
  -- Recognition by value supplies the address point that the search looked for.
  rcases Roots.cases_of_identify is with byName | byValue
  · exact ⟨fun _ => .inl byName, fun _ => .inl byName⟩
  · exact or_congr_right (and_iff_right byValue)

end Recover

/-! ### A program with two classes -/

/-- The data of a small program: the type_info of a class `1A` at the start, that of a class `1B`
    derived from it after 16 bytes, the vtable of `1B` after 40 bytes, and both names after 80. -/
def Block.sampleData : Block where
  name := ".data"
  start := 0x400000
  data := ⟨(([0x500010, 0x400050, 0x500110, 0x400053, 0x400000, 0, 0x400010, 0x600000, 0, 0] :
      List Nat).flatMap (littleBytes 8) ++ [0x31, 0x41, 0, 0x31, 0x42, 0, 0, 0]).toArray⟩
  size := 88

/-- Its code, of which only the place is known: one function. -/
def Block.sampleCode : Block where
  name := ".text"
  start := 0x600000
  size := 16
  executable := true

/-- A small program with two classes. -/
def Image.sample : Image where
  width := .wide
  order := .little
  arch := "x86_64"
  abi := none
  blocks := [.sampleData, .sampleCode]
  symbols := [{ name := "_ZTVN10__cxxabiv117__class_type_infoE", address := 0x500000 },
    { name := "_ZTVN10__cxxabiv120__si_class_type_infoE", address := 0x500100 },
    { name := "_ZN1B1fEv", address := 0x600000, size := 1, isFunction := true }]
  relocations := ∅
  ordered := by decide

/-- Questions about the small program. -/
def Context.sample : Context where
  image := .sample
  roots := ⟨[(0x500010, .simple), (0x500110, .single)], none, none⟩
  demangle := fun _ => none
  limits := {}
  cancelled := false

namespace Recover

/-- In the small program, discovery finds the derived class, which no symbol names. -/
theorem discover_exact_sample : Image.sample.Tidy ∧ ∃ classes after,
    discover .sample .initial = .ok classes after ∧
      classes.Pairwise (fun s t => s.address < t.address) ∧
      (⟨0x400010, .single⟩ : TypeInfo) ∈ classes := by
  have tidy : Image.sample.Tidy := by decide
  have data : Image.sample.DataWord 0x400010 :=
    ⟨.sampleData, List.mem_cons_self .., by decide, rfl, .inl (by decide)⟩
  obtain ⟨classes, after, found, sorted, members⟩ := discover_exact .sample tidy trivial rfl
    (by decide +kernel) "_ZTI" rfl .initial
  refine ⟨tidy, classes, after, found, sorted, (members ⟨0x400010, .single⟩).mpr ⟨?_, ?_⟩⟩
  · decide +kernel
  · exact .inr ⟨rfl, .inr ⟨by decide, data⟩⟩

end Recover

end ItaniumRtti
