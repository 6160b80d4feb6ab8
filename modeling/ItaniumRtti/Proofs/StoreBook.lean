import ItaniumRtti.Analysis.Class
import ItaniumRtti.Proofs.Recover

namespace ItaniumRtti

/-!
# Books of stores

A detector is asked about a function once, and its answer is kept.

* `Detector.onObject` — the stores of a function into its object, as the detector finds them;
* `Context.SoundStores` — a book in which every function has the stores that the detector finds;
* `Context.storesOf_spec` — a function has these stores whichever sound book is used;
* `Context.functionsStoring_spec` — the index selects the functions that store one of some values.
-/

open Recover

/-- A function of the image is the one that starts at its address. -/
theorem Image.functionAt?_of_mem {img : Image} {f : Function} (member : f ∈ img.functions) :
    img.functionAt? f.address = some f := by
  obtain ⟨address, -, found⟩ := List.mem_filterMap.mp member
  have starts : f.address = address := by
    obtain ⟨s, entered, rfl⟩ := Option.map_eq_some_iff.mp found
    have enters := List.find?_some entered
    exact beq_iff_eq.mp (Bool.and_eq_true_iff.mp enters).2
  rw [starts]
  exact found

/-- The stores of a function into its object, as the detector finds them. -/
def Detector.onObject (d : Detector) (f : Function) : List VptrStore :=
  ((d f).toOption.getD []).filter (·.onThis)

theorem Detector.onObject_of_ok {d : Detector} {f : Function} {all : List VptrStore}
    (answer : d f = .ok all) : d.onObject f = all.filter (·.onThis) := by
  rw [onObject, answer]
  rfl

namespace Context

/-- The detector answers for every function of the program. -/
def Answers (ctx : Context) (d : Detector) : Prop :=
  ∀ f ∈ ctx.image.functions, ∃ all, d f = .ok all

/-- A book in which every function listed has the stores that the detector finds. -/
structure SoundStores (ctx : Context) (d : Detector) (book : StoreBook) : Prop where
  /-- The stores listed are those that the detector finds. -/
  found : ∀ {f stores}, f ∈ ctx.image.functions → book.found[f.address]? = some stores →
    stores = d.onObject f
  /-- A complete book lists every function. -/
  complete : book.complete = true → ∀ f ∈ ctx.image.functions,
    book.found[f.address]?.isSome = true

theorem soundStores_initial (ctx : Context) (d : Detector) : ctx.SoundStores d {} where
  found _ kept := by cases kept
  complete done := by cases done

variable {ctx : Context} {d : Detector} {book : StoreBook}

/-- A book that the stores of a function are added to stays sound. -/
theorem SoundStores.record (sound : ctx.SoundStores d book) {f : Function}
    (member : f ∈ ctx.image.functions) {all : List VptrStore} (answer : d f = .ok all) :
    ctx.SoundStores d ((book.note f).enter f all) where
  found {g stores} other kept := by
    replace kept : (book.found.insert f.address (all.filter (·.onThis)))[g.address]? =
      some stores := kept
    rw [Std.TreeMap.getElem?_insert] at kept
    split at kept
    · next here =>
      -- Only one function starts at an address.
      have address : f.address = g.address := Std.compare_eq_iff_eq.mp here
      have functions := Image.functionAt?_of_mem member
      rw [address, Image.functionAt?_of_mem other] at functions
      cases functions
      rw [Detector.onObject_of_ok answer]
      exact (Option.some.inj kept).symm
    · exact sound.found other kept
  complete done g other := by
    show (book.found.insert f.address (all.filter (·.onThis)))[g.address]?.isSome = true
    rw [Std.TreeMap.getElem?_insert]
    split
    · rfl
    · exact sound.complete done g other

variable (running : ctx.cancelled = false) (answers : ctx.Answers d)
include running answers

/-- A function has the stores that the detector finds, whichever sound book is used. -/
theorem storesOf_spec {known : Knowledge} (sound : ctx.SoundStores d known.stores) {f : Function}
    (member : f ∈ ctx.image.functions) :
    ∃ book, ctx.SoundStores d book ∧
      storesOf ctx d f known = .ok (d.onObject f) { known with stores := book } := by
  rw [storesOf, get_bind]
  -- What is in the book is given at once; otherwise the detector is asked and the book extended.
  cases found : known.stores.found[f.address]? with
  | some stores =>
    rw [← sound.found member found]
    exact ⟨known.stores, sound, rfl⟩
  | none =>
    obtain ⟨all, answer⟩ := answers f member
    refine ⟨(known.stores.note f).enter f all, sound.record member answer, ?_⟩
    dsimp only
    rw [checkCancelled_running running, pure_bind, bind_ok (consult_ok known answer),
      Detector.onObject_of_ok answer]
    rfl

/-- After an examination all functions examined are in the book, and so are those before. -/
theorem examine_spec {functions : List Function}
    (members : ∀ f ∈ functions, f ∈ ctx.image.functions)
    {known : Knowledge} (sound : ctx.SoundStores d known.stores) :
    ∃ book, ctx.SoundStores d book ∧
      examine ctx d functions known = .ok () { known with stores := book } ∧
      (∀ f ∈ functions, book.found[f.address]?.isSome = true) ∧
      ∀ address : Int, known.stores.found[address]?.isSome = true →
        book.found[address]?.isSome = true := by
  -- By induction on the functions, with a book that only grows.
  induction functions generalizing known with
  | nil => exact ⟨known.stores, sound, rfl, List.forall_mem_nil _, fun _ old => old⟩
  | cons f rest ih =>
    obtain ⟨first, others⟩ := List.forall_mem_cons.mp members
    obtain ⟨all, answer⟩ := answers f first
    obtain ⟨book, still, examined, listed, kept⟩ :=
      @ih others { known with stores := (known.stores.note f).enter f all }
        (sound.record first answer)
    have recorded : ∀ address : Int,
        f.address = address ∨ known.stores.found[address]?.isSome = true →
        book.found[address]?.isSome = true := by
      intro address either
      apply kept
      show (known.stores.found.insert f.address (all.filter (·.onThis)))[address]?.isSome = true
      rw [Std.TreeMap.getElem?_insert]
      split
      · rfl
      · next other =>
        exact either.resolve_left fun same => other (Std.compare_eq_iff_eq.mpr same)
    refine ⟨book, still, ?_, List.forall_mem_cons.mpr ⟨recorded _ (.inl rfl), listed⟩,
      fun address old => recorded address (.inr old)⟩
    rw [examine, checkCancelled_running running, pure_bind, bind_ok (consult_ok known answer)]
    exact examined

/-- Once the index is made, the book has the stores of every function. -/
theorem indexStores_spec {known : Knowledge} (sound : ctx.SoundStores d known.stores) :
    ∃ book, ctx.SoundStores d book ∧
      indexStores ctx d known = .ok () { known with stores := book } ∧
      ∀ f ∈ ctx.image.functions, book.found[f.address]? = some (d.onObject f) := by
  -- A function that is listed in a sound book has the right stores there.
  have filled : ∀ {book : StoreBook}, ctx.SoundStores d book →
      (∀ f ∈ ctx.image.functions, book.found[f.address]?.isSome = true) →
      ∀ f ∈ ctx.image.functions, book.found[f.address]? = some (d.onObject f) := by
    intro book sound listed f member
    obtain ⟨stores, found⟩ := Option.isSome_iff_exists.mp (listed f member)
    rw [found, sound.found member found]
  rw [indexStores, get_bind]
  cases done : known.stores.complete with
  | true => exact ⟨known.stores, sound, rfl, filled sound (sound.complete done)⟩
  | false =>
    obtain ⟨book, still, examined, listed, -⟩ :=
      examine_spec running answers (fun f member => member) sound
    have all := filled still listed
    exact ⟨{ book with complete := true }, ⟨still.found, fun _ => listed⟩, bind_ok examined, all⟩

/-- The index selects the functions that store one of the values. -/
theorem functionsStoring_spec {known : Knowledge} (sound : ctx.SoundStores d known.stores)
    (values : List Int) :
    ∃ book, ctx.SoundStores d book ∧ functionsStoring ctx d values known =
      .ok (ctx.image.functions.filter fun f => (d.onObject f).any (values.contains ·.value))
        { known with stores := book } := by
  obtain ⟨book, still, indexed, filled⟩ := indexStores_spec running answers sound
  refine ⟨book, still, ?_⟩
  rw [functionsStoring, bind_ok indexed, get_bind]
  -- After indexing, the book and the detector select the same functions.
  have same : ctx.image.functions.filter (fun f =>
        (book.found[f.address]?.getD []).any fun s => values.contains s.value) =
      ctx.image.functions.filter (fun f => (d.onObject f).any (values.contains ·.value)) := by
    refine List.filter_congr fun f member => ?_
    rw [filled f member]
    rfl
  rw [← same]
  rfl

end Context

end ItaniumRtti
