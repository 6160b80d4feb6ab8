import ItaniumRtti.Proofs.Session.Cells

namespace ItaniumRtti

/-!
# Knowledge only grows

* `Knowledge.Grows` — no mark, no class met and no answer kept is ever lost;
* `Context.Grounded` — what is known is about strings of the program and recognised classes;
* `Context.upholds_grows` — every question keeps knowledge grounded and lets it only grow;
* `Session.after` — the session after a list of queries;
* `Session.Leads` — a session that later queries can lead to.
-/

open Recover

/-! ### Growth -/

/-- Nothing that was known is lost or changed. -/
structure Knowledge.Grows (known later : Knowledge) : Prop where
  /-- Marks stay. -/
  marks : ∀ m ∈ known.marks, m ∈ later.marks
  /-- Classes stay met. -/
  classes : Cells.Kept known.classes later.classes
  /-- Names stay known. -/
  names : known.names.Kept later.names
  /-- Direct bases stay known. -/
  bases : Cells.Kept known.bases later.bases
  /-- Virtual bases stay known. -/
  virtualBases : Cells.Kept known.virtualBases later.virtualBases
  /-- Vtables stay known. -/
  vtables : Cells.Kept known.vtables later.vtables
  /-- Tables of vtables stay known. -/
  vtts : Cells.Kept known.vtts later.vtts

/-- Nothing is lost where nothing is asked. -/
theorem Knowledge.Grows.refl (known : Knowledge) : known.Grows known where
  marks _ member := member
  classes := .refl _
  names := .refl _
  bases := .refl _
  virtualBases := .refl _
  vtables := .refl _
  vtts := .refl _

/-- Nothing is lost over two steps of which none loses anything. -/
theorem Knowledge.Grows.trans {known later last : Knowledge} (first : known.Grows later)
    (second : later.Grows last) : known.Grows last where
  marks m member := second.marks m (first.marks m member)
  classes := first.classes.trans second.classes
  names := first.names.trans second.names
  bases := first.bases.trans second.bases
  virtualBases := first.virtualBases.trans second.virtualBases
  vtables := first.vtables.trans second.vtables
  vtts := first.vtts.trans second.vtts

/-- Only a class that describes its bases in the general way has virtual ones. -/
theorem TypeInfo.kind_of_virtual {ctx : Context} {t : TypeInfo} {known after : Knowledge}
    {bases : List Base} (read : t.readBases ctx known = .ok bases after) :
    ∀ b ∈ bases, b.isVirtual = true → t.kind = .general := by
  intro b member virtual
  rw [readBases] at read
  cases kind : t.kind with
  | simple =>
    simp only [kind] at read
    cases read
    cases member
  | single =>
    simp only [kind] at read
    obtain ⟨target, middle, -, answered⟩ := of_bind_ok read
    cases answered
    -- the base of such a class is plain
    rw [List.mem_singleton.mp member] at virtual
    cases virtual
  | general => rfl

namespace Context

/-- Recognition finds a class at the address. -/
def HasClass (ctx : Context) (address : Int) : Prop :=
  ∃ t, ctx.roots.identify ctx.image address = .ok (some t)

/-- These are the virtual bases of the class at `address`, as a walk over the given direct bases
    finds them, and they are classes. -/
def VirtualsAt (ctx : Context) (cells : Std.TreeMap Int (List Base)) (address : Int)
    (classes : List TypeInfo) : Prop :=
  (∃ t edges, ctx.Identified t ∧ t.address = address ∧ ctx.ListsEdges cells t edges ∧
    classes = virtualsIn edges) ∧ ∀ c ∈ classes, ctx.Identified c

/-- What is known is about strings of the program and classes that recognition finds. -/
structure Grounded (ctx : Context) (known : Knowledge) : Prop where
  /-- Marks are strings that do not overlap. -/
  marks : ctx.image.Marked known.marks
  /-- Classes met are recognised, with the kind that is noted. -/
  classes : ∀ ⦃address : Int⦄ ⦃kind : Kind⦄, known.classes[address]? = some kind →
    ctx.roots.identify ctx.image address = .ok (some ⟨address, kind⟩)
  /-- Names are kept for classes, and mangled ones are as the marks tell. -/
  names : ∀ ⦃address : Int⦄ ⦃form : NameForm⦄ ⦃name : String⦄,
    known.names.find address form = some name →
    ctx.HasClass address ∧ (form = .mangled → ctx.ReadsName known.marks address name)
  /-- Direct bases are kept for classes, and are classes. -/
  bases : ∀ ⦃address : Int⦄ ⦃bases : List Base⦄, known.bases[address]? = some bases →
    ctx.HasClass address ∧ ∀ b ∈ bases, ctx.Identified b.target
  /-- Virtual bases are kept only for a class that describes its bases in the general way. -/
  virtuals : ∀ ⦃t : TypeInfo⦄ ⦃bases : List Base⦄, ctx.Identified t →
    known.bases[t.address]? = some bases → ∀ b ∈ bases, b.isVirtual = true → t.kind = .general
  /-- The virtual bases that are kept were collected from the direct ones. -/
  collected : ∀ ⦃address : Int⦄ ⦃classes : List TypeInfo⦄,
    known.virtualBases[address]? = some classes → ctx.VirtualsAt known.bases address classes
  /-- Vtables are kept for classes, and serve classes. -/
  vtables : ∀ ⦃address : Int⦄ ⦃v : Vtable⦄, known.vtables[address]? = some v →
    ctx.HasClass address ∧ v.Serves ctx.Identified
  /-- Tables of vtables are kept for classes. -/
  vtts : ∀ ⦃address : Int⦄ ⦃vtt : Option Vtt⦄, known.vtts[address]? = some vtt →
    ctx.HasClass address

variable {ctx : Context} {known : Knowledge}

/-- At the start nothing is known, so all of it is grounded. -/
theorem grounded_initial (ctx : Context) : ctx.Grounded .initial where
  marks := ctx.image.marked_nil
  classes _ _ kept := by cases kept
  names _ form _ kept := by cases form <;> cases kept
  bases _ _ kept := by cases kept
  virtuals _ _ _ kept := by cases kept
  collected _ _ kept := by cases kept
  vtables _ _ kept := by cases kept
  vtts _ _ kept := by cases kept

/-- Virtual bases are those of a class. -/
theorem VirtualsAt.hasClass {cells : Std.TreeMap Int (List Base)} {address : Int}
    {classes : List TypeInfo} (virtuals : ctx.VirtualsAt cells address classes) :
    ctx.HasClass address := by
  obtain ⟨⟨t, _, identified, rfl, _⟩, _⟩ := virtuals
  exact ⟨t, identified⟩

/-- Virtual bases stay so whatever bases are added, and within other limits. -/
theorem VirtualsAt.mono {cells later : Std.TreeMap Int (List Base)} {address : Int}
    {classes : List TypeInfo} (virtuals : ctx.VirtualsAt cells address classes)
    (kept : Cells.Kept cells later) (limits : Limits) (cancelled : Bool) :
    (ctx.withSettings limits cancelled).VirtualsAt later address classes := by
  obtain ⟨⟨t, edges, identified, here, lists, same⟩, targets⟩ := virtuals
  exact ⟨⟨t, edges, identified, here, lists.mono limits cancelled kept, same⟩, targets⟩

/-- Whether knowledge is grounded depends on the program alone. -/
theorem Grounded.withSettings (grounded : ctx.Grounded known) (limits : Limits)
    (cancelled : Bool) : (ctx.withSettings limits cancelled).Grounded known where
  marks := grounded.marks
  classes := grounded.classes
  names := grounded.names
  bases := grounded.bases
  virtuals := grounded.virtuals
  collected _ _ kept := (grounded.collected kept).mono (.refl _) limits cancelled
  vtables := grounded.vtables
  vtts := grounded.vtts

namespace Grounded

variable (grounded : ctx.Grounded known)
include grounded

/-- A recognised class may be noted as met. -/
theorem meet {address : Int} {t : TypeInfo}
    (found : ctx.roots.identify ctx.image address = .ok (some t)) :
    ctx.Grounded (known.meet t) :=
  { grounded with classes := Cells.forall_insert grounded.classes (identified_of_identify found) }

/-- A string may be marked: the names that earlier marks tell are still told. -/
theorem mark (place : Int) :
    ctx.Grounded { known with marks := (ctx.image.markString known.marks place).2 } := by
  obtain ⟨marked, inside, -⟩ := grounded.marks.markString place
  refine { grounded with marks := marked, names := fun address form name kept => ?_ }
  obtain ⟨is, reads⟩ := grounded.names kept
  refine ⟨is, fun mangled => ?_⟩
  exact (reads mangled).mono grounded.marks marked fun _ member => inside.subset member

/-- A name that was just read may be kept. -/
theorem keepName {before : Knowledge} (earlier : ctx.Grounded before) {t : TypeInfo}
    (identified : ctx.Identified t) {form : NameForm} {name : String}
    (asked : t.readName ctx form before = .ok name known) :
    ctx.Grounded { known with names := known.names.insert t.address name form } := by
  refine { grounded with
    names := NameCells.forall_insert grounded.names ⟨⟨t, identified⟩, fun mangled => ?_⟩ }
  subst mangled
  exact readsName_of_typeNameAt earlier.marks asked grounded.marks

/-- Direct bases that were just read may be kept if none were kept for the class. -/
theorem keepBases {before : Knowledge} {t : TypeInfo} (identified : ctx.Identified t)
    {bases : List Base} (new : before.bases[t.address]? = none)
    (targets : ∀ b ∈ bases, ctx.Identified b.target)
    (asked : t.readBases ctx before = .ok bases known) :
    ctx.Grounded { known with bases := known.bases.insert t.address bases } := by
  have general := fun b member virtual => TypeInfo.kind_of_virtual asked b member virtual
  -- nothing is kept while bases are read, so no walk that was made before is changed
  have still : known.bases[t.address]? = none :=
    ((ctx.readBases_keeps t fun cells => cells[t.address]? = none).of_ok new asked).2
  exact { grounded with
    bases := Cells.forall_insert grounded.bases ⟨⟨t, identified⟩, targets⟩
    virtuals := forall_insert_address grounded.virtuals identified general
    collected := fun _ _ kept => (grounded.collected kept).mono
      ((Cells.Kept.refl _).insertNew bases still) ctx.limits ctx.cancelled }

/-- Virtual bases that were just collected may be kept. -/
theorem keepVirtuals {before : Knowledge} {t : TypeInfo} (identified : ctx.Identified t)
    {classes : List TypeInfo} (targets : ∀ c ∈ classes, ctx.Identified c)
    (asked : t.collectVirtualBases ctx before = .ok classes known) :
    ctx.Grounded
      { known with virtualBases := known.virtualBases.insert t.address classes } := by
  obtain ⟨edges, middle, walked, answered⟩ := of_bind_ok asked
  cases answered
  have virtuals : ctx.VirtualsAt known.bases t.address (virtualsIn edges) :=
    ⟨⟨t, edges, identified, rfl, listsEdges_of_edges walked, rfl⟩, targets⟩
  exact { grounded with collected := Cells.forall_insert grounded.collected virtuals }

/-- The walk that collected the virtual bases of a class can be repeated. -/
theorem edges_of_collected {t : TypeInfo} (identified : ctx.Identified t)
    {classes : List TypeInfo} (kept : known.virtualBases[t.address]? = some classes) :
    ∃ edges, t.edges ctx known = .ok edges known ∧ classes = virtualsIn edges := by
  obtain ⟨⟨s, edges, is, here, lists, same⟩, -⟩ := grounded.collected kept
  cases is.eq_of_address identified here
  exact ⟨edges, lists known rfl, same⟩

/-- The virtual bases of a class are those of the walk from it, whether they are kept or not. -/
theorem virtualBases_of_edges {t : TypeInfo} (identified : ctx.Identified t) {edges : List Base}
    {after : Knowledge} (walked : t.edges ctx known = .ok edges after) :
    ∃ last, t.virtualBases ctx known = .ok (virtualsIn edges) last := by
  cases kept : known.virtualBases[t.address]? with
  | some classes =>
    obtain ⟨again, listed, same⟩ := grounded.edges_of_collected identified kept
    cases listed.symm.trans walked
    exact ⟨known, same ▸ remember_of_known kept⟩
  | none => exact ⟨_, remember_of_new kept (bind_ok walked)⟩

/-- A vtable may be kept for a class if it serves classes. -/
theorem keepVtable {t : TypeInfo} (identified : ctx.Identified t) {v : Vtable}
    (serves : v.Serves ctx.Identified) :
    ctx.Grounded { known with vtables := known.vtables.insert t.address v } :=
  { grounded with vtables := Cells.forall_insert grounded.vtables ⟨⟨t, identified⟩, serves⟩ }

/-- Any table of vtables may be kept for a class. -/
theorem keepVtt {t : TypeInfo} (identified : ctx.Identified t) (vtt : Option Vtt) :
    ctx.Grounded { known with vtts := known.vtts.insert t.address vtt } :=
  { grounded with vtts := Cells.forall_insert grounded.vtts ⟨t, identified⟩ }

/-- A class met again is of the kind that was noted. -/
theorem kind_eq {address : Int} {t : TypeInfo}
    (found : ctx.roots.identify ctx.image address = .ok (some t)) {kind : Kind}
    (met : known.classes[t.address]? = some kind) : kind = t.kind := by
  have same := grounded.classes met
  rw [Roots.address_of_identify found, found] at same
  exact (congrArg TypeInfo.kind (Option.some.inj (Except.ok.inj same))).symm

end Grounded

/-- Noting a class that is recognised loses nothing, since a class met before is noted with the same
    kind. -/
theorem Grounded.grows_meet (grounded : ctx.Grounded known) {address : Int} {t : TypeInfo}
    (found : ctx.roots.identify ctx.image address = .ok (some t)) : known.Grows (known.meet t) :=
  { Knowledge.Grows.refl known with
    classes := (Cells.Kept.refl known.classes).insert fun _ met => grounded.kind_eq found met }

/-- **Every question keeps knowledge grounded, and lets it only grow.** -/
theorem upholds_grows (ctx : Context) (known : Knowledge) :
    ctx.UpholdsCells (fun k => ctx.Grounded k ∧ known.Grows k) ctx.Identified where
  good := identified_of_identify
  meet {k _ t} found holds := by
    obtain ⟨grounded, grows⟩ := holds
    have noted : ∀ kind, known.classes[t.address]? = some kind → kind = t.kind :=
      fun kind met => grounded.kind_eq found (grows.classes met)
    exact ⟨grounded.meet found, { grows with classes := grows.classes.insert noted }⟩
  mark place holds := by
    obtain ⟨grounded, grows⟩ := holds
    obtain ⟨-, inside, -⟩ := grounded.marks.markString place
    refine ⟨grounded.mark place, { grows with marks := ?_ }⟩
    exact fun m member => inside.subset (grows.marks m member)
  -- Each cell is filled only where it was empty before the question, hence empty at the start, so
  -- nothing that was known is overwritten.
  named {before k t form name} earlier new holds identified asked := by
    have empty : known.names.find t.address form = none := by
      rw [Option.eq_none_iff_forall_ne_some]
      intro called kept
      cases new.symm.trans (earlier.2.names kept)
    refine ⟨holds.1.keepName earlier.1 identified asked, { holds.2 with names := ?_ }⟩
    exact holds.2.names.insertNew name empty
  listed holds _ kept := (holds.1.bases kept).2
  read {before k t bases} earlier new holds identified targets asked := by
    refine ⟨holds.1.keepBases identified new targets asked, { holds.2 with bases := ?_ }⟩
    exact holds.2.bases.insertNew bases (earlier.2.bases.none new)
  collection holds _ kept := (holds.1.collected kept).2
  collected {before k t classes} earlier new holds identified targets asked := by
    refine ⟨holds.1.keepVirtuals identified targets asked, { holds.2 with virtualBases := ?_ }⟩
    exact holds.2.virtualBases.insertNew classes (earlier.2.virtualBases.none new)
  served holds _ kept := (holds.1.vtables kept).2
  located earlier new holds identified serves _ := by
    refine ⟨holds.1.keepVtable identified serves, { holds.2 with vtables := ?_ }⟩
    exact holds.2.vtables.insertNew _ (earlier.2.vtables.none new)
  vtt {_ _ _ vtt} earlier new holds identified _ := by
    refine ⟨holds.1.keepVtt identified vtt, { holds.2 with vtts := ?_ }⟩
    exact holds.2.vtts.insertNew vtt (earlier.2.vtts.none new)
  stores _ holds := ⟨{ holds.1 with }, { holds.2 with }⟩

end Context

/-! ### Sessions -/

namespace Session

variable {s later last : Session}

/-- The session after a list of queries. -/
def after (s : Session) (queries : List Query) : Session :=
  (run queries s).2

@[simp] theorem after_nil (s : Session) : s.after [] = s :=
  rfl

@[simp] theorem after_cons (s : Session) (query : Query) (rest : List Query) :
    s.after (query :: rest) = (s.ask query).2.after rest :=
  rfl

/-- Two lists of queries are answered one after the other. -/
theorem after_append (s : Session) (first second : List Query) :
    s.after (first ++ second) = (s.after first).after second := by
  induction first generalizing s with
  | nil => rfl
  | cons query rest ih => exact ih (s.ask query).2

/-- What is known in the session is grounded. -/
def Grounded (s : Session) : Prop :=
  s.context.Grounded s.known

theorem grounded_start (image : Image) (demangle : Demangler) (limits : Limits) (table : Detector)
    (listing : Listing) : (start image demangle limits table listing).Grounded :=
  Context.grounded_initial _

/-- What a query that is answered leaves behind. -/
theorem ask_ok {query : Query} {answer : Answer} {known : Knowledge}
    (answered : s.recover query s.known = .ok answer known) :
    s.ask query = (.ok answer, { s.settingsAfter query with known := known }) := by
  rw [ask, answered]

/-- What a query that is stopped leaves behind. -/
theorem ask_error {query : Query} {fault : Fault} {known : Knowledge}
    (stopped : s.recover query s.known = .error fault known) :
    s.ask query = (.error fault, { s.settingsAfter query with known := known }) := by
  rw [ask, stopped]

/-- If a query was answered, so was the question it stands for. -/
theorem of_ask_ok {query : Query} {answer : Answer} (answered : (s.ask query).1 = .ok answer) :
    s.recover query s.known = .ok answer (s.ask query).2.known := by
  cases asked : s.recover query s.known with
  | ok other known =>
    rw [ask_ok asked] at answered ⊢
    cases answered
    rfl
  | error fault known =>
    rw [ask_error asked] at answered
    cases answered

/-- A fault of a session is one of the question that it asks. -/
theorem of_ask_error {query : Query} {fault : Fault} (stopped : (s.ask query).1 = .error fault) :
    s.recover query s.known = .error fault (s.ask query).2.known := by
  cases asked : s.recover query s.known with
  | ok answer known =>
    rw [ask_ok asked] at stopped
    cases stopped
  | error other known =>
    rw [ask_error asked] at stopped ⊢
    cases stopped
    rfl

/-- Later queries can lead from `s` to `later`: the program is the same, and nothing known is
    lost. -/
structure Leads (s later : Session) : Prop where
  /-- Only limits are changed, and whether to stop. -/
  context : later.context = s.context.withSettings later.limits later.cancelled
  /-- Nothing known is lost. -/
  known : s.known.Grows later.known
  /-- A session that was stopped stays stopped. -/
  stopped : s.cancelled = true → later.cancelled = true

theorem Leads.refl (s : Session) : s.Leads s :=
  ⟨rfl, .refl _, id⟩

/-- Later sessions lead on to still later ones. -/
theorem Leads.trans (first : s.Leads later) (second : later.Leads last) : s.Leads last where
  context := by
    rw [second.context, first.context]
    rfl
  known := first.known.trans second.known
  stopped cancelled := second.stopped (first.stopped cancelled)

/-- Whether what is known later is grounded can be seen from either session. -/
theorem Leads.grounded_iff (leads : s.Leads later) :
    later.Grounded ↔ s.context.Grounded later.known := by
  rw [Grounded, leads.context]
  exact ⟨fun grounded => grounded.withSettings s.limits s.cancelled,
    fun grounded => grounded.withSettings _ _⟩

/-- Recognition depends on the program alone. -/
theorem Leads.identify (leads : s.Leads later) (address : Int) :
    later.roots.identify later.image address = s.roots.identify s.image address := by
  show later.context.roots.identify later.context.image address = _
  rw [leads.context]
  rfl

/-- What a query changes besides knowledge: limits, or whether to stop. -/
theorem leads_settingsAfter (query : Query) {known : Knowledge} (grows : s.known.Grows known) :
    s.Leads { s.settingsAfter query with known := known } := by
  cases query with
  | cancel => exact ⟨rfl, grows, fun _ => rfl⟩
  | setLimit setting v => exact ⟨rfl, grows, id⟩
  | _ => exact ⟨rfl, grows, id⟩

/-- **What one query does.** -/
theorem ask_leads (grounded : s.Grounded) (query : Query) :
    (s.ask query).2.Grounded ∧ s.Leads (s.ask query).2 := by
  have keeps := recover_keeps (s.context.upholds_grows s.known) query
  rcases keeps.ends ⟨grounded, .refl s.known⟩ with
    ⟨answer, known, answered, -, still, grows⟩ | ⟨fault, known, stopped, still, grows⟩
  · have leads := leads_settingsAfter (s := s) query grows
    rw [ask_ok answered]
    exact ⟨leads.grounded_iff.mpr still, leads⟩
  · have leads := leads_settingsAfter (s := s) query grows
    rw [ask_error stopped]
    exact ⟨leads.grounded_iff.mpr still, leads⟩

/-- **What a run of queries does**, by induction on the queries. -/
theorem after_leads (grounded : s.Grounded) (queries : List Query) :
    (s.after queries).Grounded ∧ s.Leads (s.after queries) := by
  induction queries generalizing s with
  | nil => exact ⟨grounded, .refl s⟩
  | cons query rest ih =>
    obtain ⟨still, first⟩ := ask_leads grounded query
    obtain ⟨last, then'⟩ := ih still
    exact ⟨last, first.trans then'⟩

end Session

end ItaniumRtti
