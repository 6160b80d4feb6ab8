import ItaniumRtti.Proofs.Name.Hits
import ItaniumRtti.Proofs.Session.Lasting

namespace ItaniumRtti

/-!
# Lookup by name

A lookup goes from the one place at which the name stands to the words that point there, and from
these to the first class whose name field such a word is.  All of these classes share one string, so
they have one name, whatever marks an earlier history of the session has left.

* `Image.spelling` — the name that a class with its name at an address has;
* `Recover.of_firstNamed` — which class is found among the words;
* `Recover.firstNamed_of_mem` — a class is found if there is one;
* `Recover.findTypeInfo_eq` — a lookup in terms of the places at which the name stands;
* `Session.CalledAt` — a class is called by a name that is at a given place;
* `Session.name_lookup_sound` — what is found is called by the name, and is the first such class.
-/

open Recover

/-! ### Names that are read -/

/-- The name of a class whose name is at `place`, as it is read when there are these marks. -/
def Image.spelling (img : Image) (marks : Marks) (place : Int) : String :=
  ((img.markString marks place).1.map (withoutLocalMark ·.text)).getD ""

namespace Image.Marked

variable {img : Image} {marks : Marks}

/-- Marking a string a second time changes nothing. -/
theorem markString_twice (marked : img.Marked marks) (place : Int) :
    img.markString (img.markString marks place).2 place = img.markString marks place :=
  marked.markString_again (marked.markString place).1 place fun _ kept => kept

/-- A string is read in the same way once it is marked. -/
theorem spelling_twice (marked : img.Marked marks) (place : Int) :
    img.spelling (img.markString marks place).2 place = img.spelling marks place := by
  unfold spelling
  rw [marked.markString_twice]

end Image.Marked

namespace Recover

variable {ctx : Context} {t : TypeInfo} {name : String} {hit : Int} {known after : Knowledge}

/-- The name of a class is the spelling of its string, whether or not it was kept, and the string is
    marked then. -/
theorem typeName_of_grounded (grounded : ctx.Grounded known)
    (pointer : t.nameAddress ctx.image = .ok (some hit)) :
    ∃ after, t.typeName ctx known = .ok (ctx.image.spelling known.marks hit) after ∧
      after.marks = (ctx.image.markString known.marks hit).2 := by
  have read : typeNameAt ctx t.address known = .ok (ctx.image.spelling known.marks hit) _ :=
    Context.typeNameAt_of_marked grounded.marks pointer
  cases kept : known.names.find t.address .mangled with
  | some called =>
    -- the kept name is what the marks tell, so the string is marked already
    have told := (grounded.names kept).2 rfl known rfl
    injection told.symm.trans read with same unchanged
    subst same
    exact ⟨known, remember_of_known kept, congrArg Knowledge.marks unchanged⟩
  | none => exact ⟨_, remember_of_new kept read, rfl⟩

/-- So is the name of a type_info that was not met. -/
theorem nameOf_of_grounded (grounded : ctx.Grounded known) (identified : ctx.Identified t)
    (pointer : t.nameAddress ctx.image = .ok (some hit)) :
    ∃ after, nameOf ctx t known = .ok (ctx.image.spelling known.marks hit) after ∧
      after.marks = (ctx.image.markString known.marks hit).2 ∧ ctx.Grounded after := by
  have keeps : Keeps (fun k => ctx.Grounded k ∧ known.Grows k) Any (nameOf ctx t) :=
    (ctx.upholds_grows known).locating.nameOf identified
  suffices answered : ∃ after, nameOf ctx t known = .ok (ctx.image.spelling known.marks hit) after ∧
      after.marks = (ctx.image.markString known.marks hit).2 by
    obtain ⟨after, answered, marks⟩ := answered
    exact ⟨after, answered, marks, (keeps.of_ok ⟨grounded, .refl known⟩ answered).2.1⟩
  rw [nameOf, get_bind]
  split
  · exact typeName_of_grounded grounded pointer
  · exact ⟨_, Context.typeNameAt_of_marked grounded.marks pointer, rfl⟩

/-! ### References to a name -/

/-- A word that resolves to the name is the name field of the class before it. -/
theorem nameAddress_of_identify {reference : Int}
    (resolved : ctx.image.resolve reference = .ok (some hit))
    (found : ctx.roots.identify ctx.image (reference - ctx.image.ptr) = .ok (some t)) :
    t.nameAddress ctx.image = .ok (some hit) := by
  rw [TypeInfo.nameAddress, Roots.address_of_identify found, Int.sub_add_cancel, resolved]

/-- The step of the search at a word before which recognition finds a class. -/
theorem firstNamed_of_identify (name : String) (grounded : ctx.Grounded known) {reference : Int}
    (resolved : ctx.image.resolve reference = .ok (some hit))
    (found : ctx.roots.identify ctx.image (reference - ctx.image.ptr) = .ok (some t))
    (rest : List Int) :
    ∃ next, firstNamed ctx name (reference :: rest) known =
        (if ctx.image.spelling known.marks hit = name then .ok (some t) next
          else firstNamed ctx name rest next) ∧
      next.marks = (ctx.image.markString known.marks hit).2 ∧ ctx.Grounded next := by
  obtain ⟨next, read, marks, still⟩ := nameOf_of_grounded grounded
    (Context.identified_of_identify found) (nameAddress_of_identify resolved found)
  refine ⟨next, ?_, marks, still⟩
  rw [firstNamed, bind_ok (lift_ok known found)]
  dsimp only
  rw [bind_ok read]
  -- The name is compared last; either way knowledge is what reading the name has left.
  split
  · rfl
  · rfl

/-- The step of the search at a word before which there is no class. -/
theorem firstNamed_of_none {reference : Int}
    (found : ctx.roots.identify ctx.image (reference - ctx.image.ptr) = .ok none)
    (rest : List Int) :
    firstNamed ctx name (reference :: rest) known = firstNamed ctx name rest known := by
  rw [firstNamed, bind_ok (lift_ok known found)]

/-- Nothing is found if the string that all the words point at spells another name. -/
theorem firstNamed_ne_some {references : List Int}
    (resolved : ∀ r ∈ references, ctx.image.resolve r = .ok (some hit))
    (grounded : ctx.Grounded known) (differs : ctx.image.spelling known.marks hit ≠ name) :
    firstNamed ctx name references known ≠ .ok (some t) after := by
  intro found
  -- what is known changes with the first class, and the spelling does not
  induction references generalizing known with
  | nil => cases found
  | cons reference rest ih =>
    obtain ⟨here, later⟩ := List.forall_mem_cons.mp resolved
    cases recognised : ctx.roots.identify ctx.image (reference - ctx.image.ptr) with
    | error fault =>
      rw [firstNamed, bind_error (lift_error known recognised)] at found
      cases found
    | ok candidate =>
      cases candidate with
      | none =>
        rw [firstNamed_of_none recognised] at found
        exact ih later grounded differs found
      | some c =>
        obtain ⟨next, step, marks, still⟩ :=
          firstNamed_of_identify name grounded here recognised rest
        rw [step, if_neg differs] at found
        refine ih later still ?_ found
        rw [marks, grounded.marks.spelling_twice]
        exact differs

/-- **The class that is found.**  It stands before the first word that has a class before it, and
    the string that all the words point at spells the name. -/
theorem of_firstNamed {references : List Int}
    (resolved : ∀ r ∈ references, ctx.image.resolve r = .ok (some hit))
    (grounded : ctx.Grounded known)
    (found : firstNamed ctx name references known = .ok (some t) after) :
    ctx.image.spelling known.marks hit = name ∧
      after.marks = (ctx.image.markString known.marks hit).2 ∧ ctx.Identified t ∧
      ∃ front back, references = front ++ (t.address + ctx.image.ptr) :: back ∧
        ∀ r ∈ front, ctx.roots.identify ctx.image (r - ctx.image.ptr) = .ok none := by
  have spells : ctx.image.spelling known.marks hit = name := by
    by_contra differs
    exact firstNamed_ne_some resolved grounded differs found
  refine ⟨spells, ?_⟩
  -- Along the references: those before which no class is recognised change nothing.
  induction references with
  | nil => cases found
  | cons reference rest ih =>
    obtain ⟨here, later⟩ := List.forall_mem_cons.mp resolved
    cases recognised : ctx.roots.identify ctx.image (reference - ctx.image.ptr) with
    | error fault =>
      rw [firstNamed, bind_error (lift_error known recognised)] at found
      cases found
    | ok candidate =>
      cases candidate with
      | none =>
        rw [firstNamed_of_none recognised] at found
        obtain ⟨same, identified, front, back, split, skipped⟩ := ih later found
        refine ⟨same, identified, reference :: front, back, ?_, ?_⟩
        · rw [split, List.cons_append]
        · exact List.forall_mem_cons.mpr ⟨recognised, skipped⟩
      | some c =>
        have address := Roots.address_of_identify recognised
        -- The first class that is recognised has the name, since all references lead to one string.
        obtain ⟨next, step, marks, -⟩ :=
          firstNamed_of_identify name grounded here recognised rest
        rw [step, if_pos spells] at found
        cases found
        refine ⟨marks, ?_, [], rest, ?_, List.forall_mem_nil _⟩
        · rw [Context.Identified, address, recognised]
        · rw [address, Int.sub_add_cancel, List.nil_append]

/-- The classes before the one that is found are not recognised, if the words are in order. -/
theorem not_identified_of_lower {front back : List Int}
    (sorted : (front ++ (t.address + ctx.image.ptr) :: back).Pairwise (· < ·))
    (skipped : ∀ r ∈ front, ctx.roots.identify ctx.image (r - ctx.image.ptr) = .ok none)
    {lower : TypeInfo} (before : lower.address < t.address)
    (listed : lower.address + ctx.image.ptr ∈ front ++ (t.address + ctx.image.ptr) :: back) :
    ¬ ctx.Identified lower := by
  intro identified
  obtain ⟨-, above, -⟩ := List.pairwise_append.mp sorted
  rcases List.mem_append.mp listed with early | late
  · have missing := skipped _ early
    rw [Int.add_sub_cancel, identified] at missing
    cases missing
  · -- the words from that of `t` on belong to no lower class
    rcases List.mem_cons.mp late with same | after
    · omega
    · have higher := (List.pairwise_cons.mp above).1 _ after
      omega

/-- **A class is found** if one of the words has a class before it and the string spells the
    name. -/
theorem firstNamed_of_mem (readable : ctx.image.order.Known) {references : List Int}
    (resolved : ∀ r ∈ references, ctx.image.resolve r = .ok (some hit))
    (grounded : ctx.Grounded known) (spells : ctx.image.spelling known.marks hit = name)
    (identified : ctx.Identified t) (member : t.address + ctx.image.ptr ∈ references) :
    ∃ u after, firstNamed ctx name references known = .ok (some u) after ∧
      u.nameAddress ctx.image = .ok (some hit) := by
  induction references with
  | nil => exact absurd member List.not_mem_nil
  | cons reference rest ih =>
    obtain ⟨here, later⟩ := List.forall_mem_cons.mp resolved
    obtain ⟨candidate, recognised⟩ :=
      ctx.roots.identify_ok readable (reference - ctx.image.ptr)
    cases candidate with
    | some u =>
      obtain ⟨next, step, -, -⟩ :=
        firstNamed_of_identify name grounded here recognised rest
      rw [step, if_pos spells]
      exact ⟨u, next, rfl, nameAddress_of_identify here recognised⟩
    | none =>
      rw [firstNamed_of_none recognised]
      apply ih later
      -- the class of `t` is not the one that this word lacks
      refine (List.mem_cons.mp member).resolve_left fun same => ?_
      rw [← same, Int.add_sub_cancel, identified] at recognised
      cases recognised

/-! ### Lookups -/

variable {within : Option AddressRange}

/-- The class whose name is at one of the places, which has to be the only one. -/
def amongHits (ctx : Context) (name : String) : List Int → Recover (Option TypeInfo)
  | [hit] => lift (ctx.image.findReferences false hit ctx.image.ptr) >>= firstNamed ctx name
  | _ => pure none

/-- A lookup in terms of the places at which the name stands. -/
theorem findTypeInfo_eq (filled : name ≠ "") (within : Option AddressRange) :
    findTypeInfo ctx false within name = amongHits ctx name (ctx.image.nameHits within name) := by
  rw [findTypeInfo, if_neg filled]
  cases within with
  | none => rfl
  | some range => rfl

/-- A lookup that finds a class has found the name at one place only. -/
theorem of_amongHits {hits : List Int}
    (found : amongHits ctx name hits known = .ok (some t) after) :
    ∃ hit references, hits = [hit] ∧
      ctx.image.findReferences false hit ctx.image.ptr = .ok references ∧
      firstNamed ctx name references known = .ok (some t) after := by
  unfold amongHits at found
  -- Only a list of one place goes on with the search.
  split at found
  · next hit =>
    obtain ⟨references, middle, searched, found⟩ := of_bind_ok found
    cases search : ctx.image.findReferences false hit ctx.image.ptr with
    | error fault =>
      rw [search] at searched
      cases searched
    | ok words =>
      rw [search] at searched
      cases searched
      exact ⟨hit, references, rfl, search, found⟩
  · cases found

/-- If the name stands nowhere or at several places, nothing is looked for. -/
theorem amongHits_of_not_single {hits : List Int} (several : ∀ hit, hits ≠ [hit]) :
    amongHits ctx name hits = pure none := by
  unfold amongHits
  split
  · next hit => exact absurd rfl (several hit)
  · rfl

end Recover

/-! ### Sessions -/

/-- The name field of the class lies in a block of data. -/
def TypeInfo.FieldInData (img : Image) (t : TypeInfo) : Prop :=
  ∃ b ∈ img.blocks, b.initialized = true ∧ b.executable = false ∧ b.Covers (t.address + img.ptr)

/-- The name field of a class is among the words that a lookup goes through if it is aligned and
    lies in the data. -/
theorem TypeInfo.field_mem_references {img : Image} {t : TypeInfo} {hit : Int} (tidy : img.Tidy)
    {references : List Int} (searched : img.findReferences false hit img.ptr = .ok references)
    (pointer : t.nameAddress img = .ok (some hit)) (aligned : (t.address + img.ptr) % img.ptr = 0)
    (inData : t.FieldInData img) : t.address + img.ptr ∈ references := by
  obtain ⟨b, member, initialized, data, covers⟩ := inData
  rw [(Image.of_findReferences_ok tidy (ne_of_gt img.ptr_pos) searched).2]
  exact ⟨aligned, pointer, b, member, covers, data, .inl initialized⟩

namespace Session

variable {s : Session} {t : TypeInfo} {name : String} {hit : Int}
  {within : Option AddressRange}

/-- `t` is a class with an aligned name field that leads to `place`, and the session says that it is
    called `name`. -/
structure CalledAt (s : Session) (name : String) (place : Int) (t : TypeInfo) : Prop where
  /-- Recognition finds the class. -/
  identified : s.context.Identified t
  /-- Its name is at the place. -/
  pointer : t.nameAddress s.image = .ok (some place)
  /-- The name that is read is the given one. -/
  named : (s.ask (.ofClass t.address .typeName)).1 = .ok (.text (some name))
  /-- The name field lies at a multiple of the size of a pointer. -/
  aligned : (t.address + s.image.ptr) % s.image.ptr = 0

/-- The name of a class, as the session gives it, and what is marked then. -/
theorem ask_typeName (grounded : s.Grounded) (identified : s.context.Identified t)
    (pointer : t.nameAddress s.image = .ok (some hit)) :
    ∃ after, s.ask (.ofClass t.address .typeName) =
        (.ok (.text (some (s.image.spelling s.known.marks hit))), { s with known := after }) ∧
      after.marks = (s.image.markString s.known.marks hit).2 := by
  obtain ⟨after, read, marks⟩ := typeName_of_grounded (grounded.meet identified) pointer
  refine ⟨after, ?_, marks⟩
  apply ask_ok
  rw [recover_ofClass identified]
  show (t.typeName s.context >>= _) _ = _
  rw [bind_ok read]
  rfl

/-- A class is called what the string at its name spells. -/
theorem calledAt_of_spelling (grounded : s.Grounded) (identified : s.context.Identified t)
    (pointer : t.nameAddress s.image = .ok (some hit))
    (spells : s.image.spelling s.known.marks hit = name)
    (aligned : (t.address + s.image.ptr) % s.image.ptr = 0) : s.CalledAt name hit t := by
  refine ⟨identified, pointer, ?_, aligned⟩
  obtain ⟨after, asked, -⟩ := ask_typeName grounded identified pointer
  rw [asked, spells]

/-- The string at the name of a class spells what it is called. -/
theorem CalledAt.spelling (called : s.CalledAt name hit t) (grounded : s.Grounded) :
    s.image.spelling s.known.marks hit = name := by
  have named := called.named
  obtain ⟨after, asked, -⟩ := ask_typeName grounded called.identified called.pointer
  rw [asked] at named
  cases named
  rfl

/-- A lookup that finds nothing changes nothing. -/
theorem ask_findTypeInfo_none
    (found : findTypeInfo s.context false within name s.known = .ok none s.known) :
    s.ask (.findTypeInfo false within name) = (.ok (.typeInfo none), s) := by
  apply ask_ok
  rw [recover.eq_def]
  exact bind_ok found

/-- A lookup that finds a class also says where its name is. -/
theorem ask_findTypeInfo_some {known : Knowledge}
    (found : findTypeInfo s.context false within name s.known = .ok (some t) known)
    (pointer : t.nameAddress s.image = .ok (some hit)) :
    s.ask (.findTypeInfo false within name) =
      (.ok (.typeInfo (some (t, some hit))), { s with known := known }) := by
  apply ask_ok
  rw [recover.eq_def]
  refine (bind_ok found).trans ?_
  dsimp only
  rw [bind_ok (lift_ok known pointer)]
  rfl

/-- A class that a lookup answers is one that was found, with the place of its name. -/
theorem of_ask_findTypeInfo {place : Option Int}
    (answered : (s.ask (.findTypeInfo false within name)).1 = .ok (.typeInfo (some (t, place)))) :
    findTypeInfo s.context false within name s.known =
        .ok (some t) (s.ask (.findTypeInfo false within name)).2.known ∧
      t.nameAddress s.image = .ok place := by
  have asked := of_ask_ok answered
  rw [recover.eq_def] at asked
  obtain ⟨found, known, looked, rest⟩ := of_bind_ok asked
  cases found with
  | none => cases rest
  | some u =>
    obtain ⟨value, middle, read, made⟩ := of_bind_ok rest
    cases pointer : u.nameAddress s.image with
    | error fault =>
      rw [pointer] at read
      cases read
    | ok p =>
      rw [pointer] at read
      cases read
      injection made with same known
      cases same
      exact ⟨known ▸ looked, pointer⟩

/-- **A class is found by its name**, or another one with the same string for its name, if the name
    stands at one place. -/
theorem finds_of_called (grounded : s.Grounded) (tidy : s.image.Tidy)
    (readable : s.image.order.Known) (filled : name ≠ "")
    (single : s.image.nameHits within name = [hit]) (fits : hit < s.image.width.span)
    (called : s.CalledAt name hit t) (inData : t.FieldInData s.image) :
    ∃ u, (s.ask (.findTypeInfo false within name)).1 = .ok (.typeInfo (some (u, some hit))) := by
  have nonzero := ne_of_gt s.image.ptr_pos
  obtain ⟨references, searched⟩ := Image.findReferences_ok readable fits nonzero
  have resolved : ∀ r ∈ references, s.image.resolve r = .ok (some hit) := fun r member =>
    (((Image.of_findReferences_ok tidy nonzero searched).2 r).mp member).2.1
  -- The class's own field is among the references, so that the search cannot run out.
  have member := t.field_mem_references tidy searched called.pointer called.aligned inData
  obtain ⟨u, after, found, pointer⟩ := @firstNamed_of_mem s.context t name hit s.known readable
    references resolved grounded (called.spelling grounded) called.identified member
  have looked : findTypeInfo s.context false within name s.known = .ok (some u) after := by
    rw [findTypeInfo_eq filled]
    show amongHits s.context name (s.image.nameHits within name) s.known = _
    rw [single]
    exact (bind_ok (lift_ok s.known searched)).trans found
  refine ⟨u, ?_⟩
  rw [ask_findTypeInfo_some looked pointer]

/-- **What is found** is called by the name, its name is at the one place at which the name stands,
    and no class before it in the data is called so. -/
theorem first_of_found (grounded : s.Grounded) (tidy : s.image.Tidy) (filled : name ≠ "")
    {place : Option Int}
    (answered : (s.ask (.findTypeInfo false within name)).1 = .ok (.typeInfo (some (t, place)))) :
    ∃ hit, s.image.nameHits within name = [hit] ∧ place = some hit ∧
      (s.ask (.findTypeInfo false within name)).2.CalledAt name hit t ∧
      ∀ lower : TypeInfo, lower.address < t.address → lower.FieldInData s.image →
        ¬ (s.ask (.findTypeInfo false within name)).2.CalledAt name hit lower := by
  obtain ⟨looked, pointer⟩ := of_ask_findTypeInfo answered
  rw [findTypeInfo_eq filled] at looked
  obtain ⟨hit, references, single, searched, found⟩ := of_amongHits looked
  obtain ⟨sorted, members⟩ := Image.of_findReferences_ok tidy (ne_of_gt s.image.ptr_pos) searched
  have resolved : ∀ r ∈ references, s.image.resolve r = .ok (some hit) := fun r member =>
    ((members r).mp member).2.1
  obtain ⟨spells, marks, identified, front, back, split, skipped⟩ :=
    of_firstNamed resolved grounded found
  change references = front ++ (t.address + s.image.ptr) :: back at split
  have member : t.address + s.image.ptr ∈ references := by
    rw [split]
    exact List.mem_append_right _ (List.mem_cons_self ..)
  have leadsTo : t.nameAddress s.image = .ok (some hit) := resolved _ member
  cases pointer.symm.trans leadsTo
  -- after the lookup more may be known of the session's program, and the string at `hit` is marked
  have later : (s.ask (.findTypeInfo false within name)).2 =
      { s with known := (s.ask (.findTypeInfo false within name)).2.known } := by
    rw [ask_findTypeInfo_some (by rw [findTypeInfo_eq filled]; exact looked) leadsTo]
  have still := (ask_leads grounded (.findTypeInfo false within name)).1
  generalize (s.ask (.findTypeInfo false within name)).2.known = known at later marks
  rw [later] at still ⊢
  refine ⟨hit, single, rfl, ?_, ?_⟩
  · have again : s.image.spelling known.marks hit = name := by
      rw [marks]
      exact (grounded.marks.spelling_twice hit).trans spells
    exact calledAt_of_spelling still identified leadsTo again ((members _).mp member).1
  · intro lower before inData called
    have listed : lower.address + s.image.ptr ∈ references :=
      lower.field_mem_references tidy searched called.pointer called.aligned inData
    rw [split] at sorted listed
    exact not_identified_of_lower sorted skipped before listed called.identified

/-- **Lookup by name is sound and refuses ambiguity.**  In a program whose blocks do not overlap,
    after any queries: unless the name stands at exactly one place, nothing is found and nothing
    changes.  A class that is found is called by the name, its name is at that place, and no class
    before it with its name field in the data is called so.  In a known byte order a class is found
    if there is one. -/
theorem name_lookup_sound (image : Image) (demangle : Demangler) (limits : Limits)
    (table : Detector) (listing : Listing) (queries : List Query) (tidy : image.Tidy)
    (within : Option AddressRange) {name : String} (filled : name ≠ "") :
    let s := (start image demangle limits table listing).after queries
    let later := (s.ask (.findTypeInfo false within name)).2
    ((¬ ∃! hit, image.IsNameHit within name hit) →
      s.ask (.findTypeInfo false within name) = (.ok (.typeInfo none), s)) ∧
    (∀ t place,
      (s.ask (.findTypeInfo false within name)).1 = .ok (.typeInfo (some (t, place))) →
      ∃ hit, place = some hit ∧ image.IsNameHit within name hit ∧
        (∀ other, image.IsNameHit within name other → other = hit) ∧
        later.CalledAt name hit t ∧
        ∀ lower : TypeInfo, lower.address < t.address → lower.FieldInData image →
          ¬ later.CalledAt name hit lower) ∧
    (image.order.Known → ∀ t hit, image.IsNameHit within name hit →
      (∀ other, image.IsNameHit within name other → other = hit) → hit < image.width.span →
      s.CalledAt name hit t → t.FieldInData image →
      ∃ u, (s.ask (.findTypeInfo false within name)).1 =
        .ok (.typeInfo (some (u, some hit)))) := by
  intro s later
  obtain ⟨grounded, leads⟩ : s.Grounded ∧ (start image demangle limits table listing).Leads s :=
    after_leads (grounded_start image demangle limits table listing) queries
  -- The queries before do not change the program.
  have same : s.image = image := congrArg Context.image leads.context
  refine ⟨?ambiguous, ?found, ?finds⟩
  case ambiguous =>
    intro several
    apply ask_findTypeInfo_none
    rw [findTypeInfo_eq filled, amongHits_of_not_single]
    · rfl
    · intro hit single
      change s.image.nameHits within name = [hit] at single
      rw [same, Image.nameHits_eq_singleton_iff tidy] at single
      exact several ⟨hit, single⟩
  case found =>
    intro t place answered
    obtain ⟨hit, single, at', called, first⟩ :=
      first_of_found grounded (same ▸ tidy) filled answered
    rw [same] at single first
    obtain ⟨stands, only⟩ := (Image.nameHits_eq_singleton_iff tidy).mp single
    exact ⟨hit, at', stands, only, called, first⟩
  case finds =>
    intro readable t hit stands only fits called inData
    have single := (Image.nameHits_eq_singleton_iff tidy).mpr ⟨stands, only⟩
    rw [← same] at tidy readable single fits inData
    exact finds_of_called grounded tidy readable filled single fits called inData

end Session

/-! ### A program with shared names -/

/-- The data of a program: two type_info structures of a class `1A`, which share the string of its
    name, and one of a class `1B` that only its own file can name.  The names follow after 48
    bytes. -/
def Block.sampleNames : Block where
  name := ".data"
  start := 0x400000
  data := ⟨(([0x500010, 0x400030, 0x500010, 0x400030, 0x500010, 0x400033] : List Nat).flatMap
      (littleBytes 8) ++ [0x31, 0x41, 0, 0x2A, 0x31, 0x42, 0]).toArray⟩
  size := 55

/-- The program with these classes. -/
def Image.sampleNames : Image :=
  { Image.sample with
    blocks := [.sampleNames, .sampleCode]
    ordered := by decide }

theorem Image.tidy_sampleNames : Image.sampleNames.Tidy := by
  decide

namespace Session

/-- A session about that program, after the name of the second class was read. -/
def sampleNames : Session :=
  (start .sampleNames (fun _ => none) {} (.ofTable []) []).after [.ofClass 0x400010 .typeName]

/-- Of the two classes with one name the lower one is found.  The other name stands nowhere without
    its mark, and so nothing is found for it. -/
theorem name_lookup_sound_sampleNames :
    (sampleNames.ask (.findTypeInfo false none "1A")).1 =
        .ok (.typeInfo (some (⟨0x400000, .simple⟩, some 0x400030))) ∧
      (sampleNames.ask (.findTypeInfo false none "1A")).2.CalledAt "1A" 0x400030
        ⟨0x400000, .simple⟩ ∧
      sampleNames.ask (.findTypeInfo false none "1B") = (.ok (.typeInfo none), sampleNames) := by
  have tidy := Image.tidy_sampleNames
  have sound := fun name => @name_lookup_sound .sampleNames (fun _ => none) {} (.ofTable []) []
    [.ofClass 0x400010 .typeName] tidy none name
  obtain ⟨known, looked⟩ := run'_eq_some_iff.mp (by decide +kernel :
    (findTypeInfo sampleNames.context false none "1A").run' sampleNames.known =
      some (some ⟨0x400000, .simple⟩))
  have pointer : TypeInfo.nameAddress sampleNames.image ⟨0x400000, .simple⟩ =
      .ok (some 0x400030) := by decide +kernel
  have answered := congrArg Prod.fst (ask_findTypeInfo_some looked pointer)
  obtain ⟨hit, place, -, -, called, -⟩ := (sound "1A" (by decide)).2.1 _ _ answered
  cases place
  -- The string with the mark is no hit for the name without it, since no NUL stands before the
  -- name.
  have nowhere : ¬ ∃! hit, Image.sampleNames.IsNameHit none "1B" hit := by
    rintro ⟨hit, stands, -⟩
    have none : Image.sampleNames.nameHits none "1B" = [] := by decide +kernel
    have found := (Image.mem_nameHits tidy).mpr stands
    rw [none] at found
    exact List.not_mem_nil found
  have refused := (sound "1B" (by decide)).1 nowhere
  exact ⟨answered, called, refused⟩

end Session

end ItaniumRtti
