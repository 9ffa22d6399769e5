import StromDB.Lib.Checked

-- Programs of one client of a store of objects under keys, which others may
-- share. A request takes effect at one instant. The client of a request that is
-- lost learns neither whether nor when it takes effect.
namespace Client

inductive Request (Key Body : Type) where
  | create (key : Key) (body : Body)
  | read (key : Key)
  | delete (key : Key)
deriving DecidableEq

abbrev Request.Answer (View : Type) {Key Body : Type} : Request Key Body → Type
  | .create _ _ => Unit
  | .read _ => View
  | .delete _ => Unit

def Request.isCreate {Key Body : Type} : Request Key Body → Bool
  | .create _ _ => true
  | _ => false

inductive Program (Key Body View Error α : Type) where
  | done (value : α)
  | halt (message : String)
  | send (request : Request Key Body) (next : Except Error (request.Answer View) → Program Key Body View Error α)

structure Event (Key Body View Error : Type) where
  request : Request Key Body
  reply : Except Error (request.Answer View)

structure Occupant (Body : Type) where
  body : Body
  own : Bool
deriving DecidableEq

abbrev Slots (Key Body : Type) := Key → Option (Occupant Body)

-- The store with the lost requests that may still take effect, the requests the
-- client has had a reply to and the contents there have been, newest first.
structure World (Key Body View Error : Type) where
  slots : Slots Key Body
  flight : List (Request Key Body)
  trace : List (Event Key Body View Error)
  moments : List (Slots Key Body)

-- What a reply says: a view shows the body that was read, a conflict that the
-- key was taken, and absence that it was not.
structure Setting (Body View Error : Type) where
  shows : View → Body → Prop
  conflict : Error → Prop
  absent : Error → Prop
  faulty : Prop
  shared : Prop

namespace Program

variable {Key Body View Error α β : Type}

protected def bind : Program Key Body View Error α → (α → Program Key Body View Error β) → Program Key Body View Error β
  | .done value, f => f value
  | .halt message, _ => .halt message
  | .send request next, f => .send request fun reply => (next reply).bind f

instance : Monad (Program Key Body View Error) where
  pure := .done
  bind := Program.bind

@[simp] theorem pure_eq_done (value : α) : (pure value : Program Key Body View Error α) = .done value := rfl

@[simp] theorem done_bind (value : α) (f : α → Program Key Body View Error β) : (Program.done value >>= f) = f value := rfl

@[simp] theorem halt_bind (message : String) (f : α → Program Key Body View Error β) :
    ((Program.halt message : Program Key Body View Error α) >>= f) = .halt message := rfl

@[simp] theorem send_bind (request : Request Key Body) (next : Except Error (request.Answer View) → Program Key Body View Error α)
    (f : α → Program Key Body View Error β) : (Program.send request next >>= f) = .send request fun reply => next reply >>= f := rfl

def perform (request : Request Key Body) : Program Key Body View Error (Except Error (request.Answer View)) := .send request .done

def expect : Checked α → Program Key Body View Error α
  | .ok value => .done value
  | .error message => .halt message

def Within : Program Key Body View Error α → Nat → Prop
  | .done _, _ => True
  | .halt _, _ => True
  | .send _ _, 0 => False
  | .send _ next, bound + 1 => ∀ reply, (next reply).Within bound

def Ended : Program Key Body View Error α → Prop
  | .done _ => True
  | .halt _ => True
  | .send _ _ => False

theorem Within.done (value : α) (bound : Nat) : (.done value : Program Key Body View Error α).Within bound := trivial

theorem Within.halt (message : String) (bound : Nat) : (.halt message : Program Key Body View Error α).Within bound := trivial

theorem Within.send (request : Request Key Body) (next : Except Error (request.Answer View) → Program Key Body View Error α)
    (bound : Nat)
    (each : ∀ reply, (next reply).Within bound) : (Program.send request next).Within (bound + 1) := each

theorem Within.mono (program : Program Key Body View Error α) : ∀ small large : Nat, small ≤ large → program.Within small →
    program.Within large := by
  induction program with
  | done value | halt message => exact fun _ _ _ _ => trivial
  | send request next ih =>
    intro small large le within
    cases small with
    | zero => cases within
    | succ small =>
      obtain ⟨more, rfl⟩ := Nat.exists_eq_add_of_le le
      rw [Nat.add_right_comm]
      exact fun reply => ih reply small (small + more) (Nat.le_add_right _ _) (within reply)

theorem Within.bind (program : Program Key Body View Error α) (f : α → Program Key Body View Error β) (rest : Nat)
    (after : ∀ value, (f value).Within rest) : ∀ first : Nat, program.Within first → (program >>= f).Within (first + rest) := by
  induction program with
  | done value => exact fun first _ => Within.mono _ _ _ (Nat.le_add_left rest first) (after value)
  | halt message => exact fun _ _ => trivial
  | send request next ih =>
    intro first within
    cases first with
    | zero => cases within
    | succ first =>
      rw [Nat.add_right_comm]
      exact fun reply => ih reply first (within reply)

end Program

section

variable {Key Body View Error α β : Type} [DecidableEq Key]

def Request.effect : Request Key Body → Slots Key Body → Slots Key Body
  | .create key body, slots => if slots key = none then Function.update slots key (some ⟨body, true⟩) else slots
  | .read _, slots => slots
  | .delete key, slots => Function.update slots key none

def Request.Admits (setting : Setting Body View Error) (slots : Slots Key Body) :
    (request : Request Key Body) → Except Error (request.Answer View) → Prop
  | .create key _, .ok _ => slots key = none
  | .create key _, .error error => setting.conflict error ∧ slots key ≠ none
  | .read key, .ok view => ∃ occupant, slots key = some occupant ∧ setting.shows view occupant.body
  | .read key, .error error => setting.absent error ∧ slots key = none
  | .delete _, .ok _ => True
  | .delete key, .error error => setting.absent error ∧ slots key = none

def Request.Settled (setting : Setting Body View Error) (error : Error) : Request Key Body → Prop
  | .create _ _ => setting.conflict error
  | .read _ => setting.absent error
  | .delete _ => setting.absent error

namespace World

def start (slots : Slots Key Body) (flight : List (Request Key Body)) : World Key Body View Error := ⟨slots, flight, [], [slots]⟩

def become (world : World Key Body View Error) (slots : Slots Key Body) : World Key Body View Error :=
  { world with slots := slots, moments := slots :: world.moments }

def record (world : World Key Body View Error) (event : Event Key Body View Error) : World Key Body View Error :=
  { world with trace := world.trace ++ [event] }

def creates (world : World Key Body View Error) : Nat := world.trace.countP fun event => event.request.isCreate

def Held (world : World Key Body View Error) (key : Key) (occupant : Occupant Body) : Prop :=
  ∃ moment ∈ world.moments, moment key = some occupant

end World

-- What happens to the store without the client: a lost request takes effect, or
-- another actor creates where nothing is, or deletes.
inductive Drift (setting : Setting Body View Error) : World Key Body View Error → World Key Body View Error → Prop where
  | land (world : World Key Body View Error) (request : Request Key Body) (before after : List (Request Key Body))
      (lost : world.flight = before ++ request :: after) :
      Drift setting world { world.become (request.effect world.slots) with flight := before ++ after }
  | create (world : World Key Body View Error) (key : Key) (body : Body) (shared : setting.shared) (vacant : world.slots key = none) :
      Drift setting world (world.become (Function.update world.slots key (some ⟨body, false⟩)))
  | delete (world : World Key Body View Error) (key : Key) (shared : setting.shared) :
      Drift setting world (world.become (Function.update world.slots key none))

abbrev Drifts (setting : Setting Body View Error) : World Key Body View Error → World Key Body View Error → Prop :=
  Relation.ReflTransGen (Drift setting)

inductive Exchange (setting : Setting Body View Error) (world : World Key Body View Error) :
    Event Key Body View Error → World Key Body View Error → Prop where
  | answered (request : Request Key Body) (reply : Except Error (request.Answer View))
      (admits : request.Admits setting world.slots reply) :
      Exchange setting world ⟨request, reply⟩ ((world.become (request.effect world.slots)).record ⟨request, reply⟩)
  | lost (request : Request Key Body) (error : Error) (faulty : setting.faulty) (unsettled : ¬ request.Settled setting error) :
      Exchange setting world ⟨request, .error error⟩ ({ world with flight := request :: world.flight }.record ⟨request, .error error⟩)

abbrev Scene (Key Body View Error α : Type) := Program Key Body View Error α × World Key Body View Error

inductive Step (setting : Setting Body View Error) : Scene Key Body View Error α → Scene Key Body View Error α → Prop where
  | drift (program : Program Key Body View Error α) (before after : World Key Body View Error) (drift : Drift setting before after) :
      Step setting (program, before) (program, after)
  | exchange (request : Request Key Body) (next : Except Error (request.Answer View) → Program Key Body View Error α)
      (reply : Except Error (request.Answer View)) (before after : World Key Body View Error)
      (exchange : Exchange setting before ⟨request, reply⟩ after) :
      Step setting (.send request next, before) (next reply, after)

abbrev Reaches (setting : Setting Body View Error) : Scene Key Body View Error α → Scene Key Body View Error α → Prop :=
  Relation.ReflTransGen (Step setting)

-- Every run from the world keeps the guard, and ends with what is asked of its
-- outcome, which is the text of the assertion where the program stops at one.
def Program.Meets (setting : Setting Body View Error) (guard : World Key Body View Error → Prop) :
    Program Key Body View Error α → (Checked α → World Key Body View Error → Prop) → World Key Body View Error → Prop
  | .done value, post, world => ∀ later, Drifts setting world later → guard later ∧ post (.ok value) later
  | .halt message, post, world => ∀ later, Drifts setting world later → guard later ∧ post (.error message) later
  | .send request next, post, world => ∀ later, Drifts setting world later → guard later ∧
      ∀ reply after, Exchange setting later ⟨request, reply⟩ after → (next reply).Meets setting guard post after

end

section

variable {Key Body View Error α β : Type} [DecidableEq Key] {setting : Setting Body View Error}
    {guard : World Key Body View Error → Prop} {post : Checked α → World Key Body View Error → Prop}

theorem Program.Meets.drift (program : Program Key Body View Error α) (before after : World Key Body View Error)
    (drifted : Drifts setting before after) (meets : program.Meets setting guard post before) :
    program.Meets setting guard post after := by
  cases program with
  | done value | halt message | send request next => exact fun later more => meets later (drifted.trans more)

theorem Program.Meets.step (first last : Scene Key Body View Error α) (meets : first.1.Meets setting guard post first.2)
    (stepped : Step setting first last) : last.1.Meets setting guard post last.2 := by
  cases stepped with
  | drift program before after drifted => exact Program.Meets.drift program before after (.single drifted) meets
  | exchange request next reply before after exchanged => exact (meets before .refl).2 reply after exchanged

theorem Program.Meets.reaches {program rest : Program Key Body View Error α} {before after : World Key Body View Error}
    (meets : program.Meets setting guard post before) (reached : Reaches setting (program, before) (rest, after)) :
    rest.Meets setting guard post after := by
  have all : ∀ last : Scene Key Body View Error α, Reaches setting (program, before) last → last.1.Meets setting guard post last.2 := by
    intro last reached
    induction reached with
    | refl => exact meets
    | tail _ stepped ih => exact Program.Meets.step _ _ ih stepped
  exact all (rest, after) reached

theorem Program.Meets.guarded {program : Program Key Body View Error α} {world : World Key Body View Error}
    (meets : program.Meets setting guard post world) : guard world := by
  cases program <;> exact (meets world .refl).1

theorem Program.Meets.outcome {program : Program Key Body View Error α} {value : α} {before after : World Key Body View Error}
    (meets : program.Meets setting guard post before) (reached : Reaches setting (program, before) (.done value, after)) :
    post (.ok value) after :=
  (Program.Meets.reaches meets reached after .refl).2

theorem Program.Meets.stopped {program : Program Key Body View Error α} {message : String} {before after : World Key Body View Error}
    (meets : program.Meets setting guard post before) (reached : Reaches setting (program, before) (.halt message, after)) :
    post (.error message) after :=
  (Program.Meets.reaches meets reached after .refl).2

theorem Program.Meets.mono {weaker : Checked α → World Key Body View Error → Prop} (program : Program Key Body View Error α) :
    ∀ world, (∀ outcome later, post outcome later → weaker outcome later) → program.Meets setting guard post world →
      program.Meets setting guard weaker world := by
  induction program with
  | done value
  | halt message => exact fun world implies meets later drifted => ⟨(meets later drifted).1, implies _ _ (meets later drifted).2⟩
  | send request next ih =>
    exact fun world implies meets later drifted => ⟨(meets later drifted).1, fun reply after exchanged =>
      ih reply after implies ((meets later drifted).2 reply after exchanged)⟩

theorem Program.Meets.bind {middle : Checked α → World Key Body View Error → Prop} {post : Checked β → World Key Body View Error → Prop}
    (program : Program Key Body View Error α) (f : α → Program Key Body View Error β)
    (continues : ∀ value world, middle (.ok value) world → (f value).Meets setting guard post world)
    (stops : ∀ message world, middle (.error message) world → post (.error message) world) :
    ∀ world, program.Meets setting guard middle world → (program >>= f).Meets setting guard post world := by
  induction program with
  | done value => exact fun world meets => continues value world (meets world .refl).2
  | halt message => exact fun world meets later drifted => ⟨(meets later drifted).1, stops message later (meets later drifted).2⟩
  | send request next ih =>
    exact fun world meets later drifted => ⟨(meets later drifted).1, fun reply after exchanged =>
      ih reply after ((meets later drifted).2 reply after exchanged)⟩

theorem Program.Meets.send (request : Request Key Body) (next : Except Error (request.Answer View) → Program Key Body View Error α)
    (stable : World Key Body View Error → Prop) (keeps : ∀ before after, stable before → Drift setting before after → stable after)
    (guards : ∀ world, stable world → guard world)
    (continues : ∀ before reply after, stable before → Exchange setting before ⟨request, reply⟩ after →
      (next reply).Meets setting guard post after)
    (world : World Key Body View Error) (here : stable world) : (Program.send request next).Meets setting guard post world := by
  intro later drifted
  have there : stable later := by
    induction drifted with
    | refl => exact here
    | tail _ drift ih => exact keeps _ _ ih drift
  exact ⟨guards later there, fun reply after exchanged => continues later reply after there exchanged⟩

theorem Program.Meets.done {value : α} {stable : World Key Body View Error → Prop}
    (keeps : ∀ before after, stable before → Drift setting before after → stable after)
    (concludes : ∀ world, stable world → guard world ∧ post (.ok value) world)
    (world : World Key Body View Error) (here : stable world) : (Program.done value).Meets setting guard post world := by
  intro later drifted
  have there : stable later := by
    induction drifted with
    | refl => exact here
    | tail _ drift ih => exact keeps _ _ ih drift
  exact concludes later there

theorem Program.ends (answers : ∀ (slots : Slots Key Body) (request : Request Key Body), ∃ reply : Except Error (request.Answer View),
    request.Admits setting slots reply) (program : Program Key Body View Error α) :
    ∀ world, ∃ last : Scene Key Body View Error α, Reaches setting (program, world) last ∧ last.1.Ended := by
  induction program with
  | done value | halt message => exact fun world => ⟨_, .refl, trivial⟩
  | send request next ih =>
    intro world
    obtain ⟨reply, admits⟩ := answers world.slots request
    obtain ⟨last, reached, ended⟩ := ih reply ((world.become (request.effect world.slots)).record ⟨request, reply⟩)
    exact ⟨last, reached.head (.exchange request next reply world _ (.answered request reply admits)), ended⟩

theorem Program.Within.requests {first last : Scene Key Body View Error α} (reached : Reaches setting first last) :
    ∀ bound : Nat, first.1.Within bound →
      ∃ rest, last.1.Within rest ∧ last.2.trace.length + rest = first.2.trace.length + bound := by
  induction reached with
  | refl => exact fun bound within => ⟨bound, within, rfl⟩
  | tail _ stepped ih =>
    intro bound within
    obtain ⟨rest, left, total⟩ := ih bound within
    cases stepped with
    | drift program before after drifted =>
      refine ⟨rest, left, ?_⟩
      cases drifted <;> exact total
    | exchange request next reply before after exchanged =>
      cases rest with
      | zero => cases left
      | succ rest =>
        have longer : after.trace.length = before.trace.length + 1 := by
          cases exchanged <;> simp [World.record, World.become]
        exact ⟨rest, left reply, by simp only at total ⊢; omega⟩

end

attribute [irreducible] Program.Meets Program.Within

section

variable {Key Body View Error : Type} [DecidableEq Key] {setting : Setting Body View Error}
    {before after : World Key Body View Error} {event : Event Key Body View Error}

structure World.Fresh (world : World Key Body View Error) : Prop where
  unsent : world.creates = 0
  landed : world.flight = []
  foreign : ∀ key occupant, world.slots key = some occupant → occupant.own = false

omit [DecidableEq Key] in
theorem World.start_fresh {slots : Slots Key Body} (foreign : ∀ key occupant, slots key = some occupant → occupant.own = false) :
    (World.start slots [] : World Key Body View Error).Fresh := ⟨rfl, rfl, foreign⟩

theorem Drift.moments (drift : Drift setting before after) : before.moments ⊆ after.moments := by
  cases drift <;> exact List.subset_cons_self _ _

theorem Drift.trace (drift : Drift setting before after) : after.trace = before.trace := by
  cases drift <;> rfl

theorem Exchange.moments
    (exchange : Exchange setting before event after) : before.moments ⊆ after.moments := by
  cases exchange
  case answered => exact List.subset_cons_self _ _
  case lost => exact List.Subset.refl _

theorem Exchange.trace
    (exchange : Exchange setting before event after) : after.trace = before.trace ++ [event] := by
  cases exchange <;> rfl

omit [DecidableEq Key] in
theorem World.Held.later {key : Key} {occupant : Occupant Body}
    (more : before.moments ⊆ after.moments) (held : before.Held key occupant) : after.Held key occupant := by
  obtain ⟨moment, member, there⟩ := held
  exact ⟨moment, more member, there⟩

theorem Drift.creates (drift : Drift setting before after) : after.creates = before.creates := by
  rw [World.creates, drift.trace, World.creates]

theorem Exchange.creates
    (exchange : Exchange setting before event after) : after.creates = before.creates + if event.request.isCreate then 1 else 0 := by
  rw [World.creates, exchange.trace, List.countP_append, List.countP_singleton, World.creates]

theorem World.Fresh.drift (fresh : before.Fresh) (drift : Drift setting before after) : after.Fresh := by
  have unsent : after.creates = 0 := drift.creates.trans fresh.unsent
  cases drift with
  | land request first rest lost =>
    rw [fresh.landed] at lost
    simp at lost
  | create key body shared vacant =>
    refine ⟨unsent, fresh.landed, ?_⟩
    intro other occupant here
    by_cases same : other = key
    · subst same
      simp only [become, Function.update_self, Option.some.injEq] at here
      rw [← here]
    · simp only [become, Function.update_of_ne same] at here
      exact fresh.foreign other occupant here
  | delete key shared =>
    refine ⟨unsent, fresh.landed, ?_⟩
    intro other occupant here
    by_cases same : other = key
    · subst same
      simp only [become, Function.update_self] at here
      cases here
    · simp only [become, Function.update_of_ne same] at here
      exact fresh.foreign other occupant here

theorem Exchange.created {key : Key} {body : Body} {u : Unit}
    (exchange : Exchange setting before ⟨.create key body, .ok u⟩ after) : after.Held key ⟨body, true⟩ := by
  cases exchange with
  | answered _ _ admits =>
    refine ⟨_, List.mem_cons_self, ?_⟩
    have vacant : before.slots key = none := admits
    simp [Request.effect, vacant]

theorem World.Fresh.refused {key : Key} {body : Body} {error : Error} (fresh : before.Fresh)
    (conflict : setting.conflict error) (exchange : Exchange setting before ⟨.create key body, .error error⟩ after) :
    ∃ other, after.Held key ⟨other, false⟩ := by
  cases exchange with
  | answered _ _ admits =>
    obtain ⟨_, taken⟩ : setting.conflict error ∧ before.slots key ≠ none := admits
    obtain ⟨occupant, here⟩ := Option.ne_none_iff_exists'.mp taken
    have foreign := fresh.foreign key occupant here
    refine ⟨occupant.body, _, List.mem_cons_self, ?_⟩
    simp only [Request.effect]
    rw [if_neg taken, here, ← foreign]
  | lost _ _ _ unsettled => exact absurd conflict unsettled

theorem Exchange.viewed {key : Key} {view : View} (exchange : Exchange setting before ⟨.read key, .ok view⟩ after) :
    ∃ occupant, after.Held key occupant ∧ setting.shows view occupant.body := by
  cases exchange with
  | answered _ _ admits =>
    obtain ⟨occupant, here, shown⟩ : ∃ occupant, before.slots key = some occupant ∧ setting.shows view occupant.body := admits
    exact ⟨occupant, ⟨_, List.mem_cons_self, here⟩, shown⟩

def Lasting (fact : World Key Body View Error → Prop) : Prop :=
  ∀ before after, before.moments ⊆ after.moments → fact before → fact after

variable {α : Type} {bound : Nat} {post : Checked α → World Key Body View Error → Prop}

theorem Lasting.drift {fact : World Key Body View Error → Prop} (lasting : Lasting fact) (before after : World Key Body View Error)
    (known : before.creates ≤ bound ∧ fact before) (drift : Drift setting before after) : after.creates ≤ bound ∧ fact after :=
  ⟨drift.creates.symm ▸ known.1, lasting before after drift.moments known.2⟩

theorem Lasting.done {fact : World Key Body View Error → Prop} (lasting : Lasting fact) (value : α)
    (concludes : ∀ world, world.creates ≤ bound → fact world → post (.ok value) world)
    (world : World Key Body View Error) (sent : world.creates ≤ bound) (known : fact world) :
    (Program.done value).Meets setting (fun world => world.creates ≤ bound) post world :=
  Program.Meets.done lasting.drift
    (fun world here => ⟨here.1, concludes world here.1 here.2⟩) world ⟨sent, known⟩

theorem Lasting.read (fact : World Key Body View Error → Prop) (lasting : Lasting fact) (key : Key)
    (next : Except Error View → Program Key Body View Error α) (continues : ∀ reply world, world.creates ≤ bound → fact world →
      (∀ view, reply = .ok view → ∃ occupant, world.Held key occupant ∧ setting.shows view occupant.body) →
      (next reply).Meets setting (fun world => world.creates ≤ bound) post world)
    (world : World Key Body View Error) (sent : world.creates ≤ bound) (known : fact world) :
    (Program.send (.read key) next).Meets setting (fun world => world.creates ≤ bound) post world := by
  refine Program.Meets.send (.read key) next (fun world => world.creates ≤ bound ∧ fact world) lasting.drift (fun _ here => here.1) ?_
    world ⟨sent, known⟩
  intro before reply after here exchange
  refine continues reply after ?_ (lasting before after exchange.moments here.2) ?_
  · exact exchange.creates.symm ▸ here.1
  · rintro view rfl
    exact exchange.viewed

theorem World.Fresh.create {key : Key} {body : Body} {next : Except Error Unit → Program Key Body View Error α}
    (continues : ∀ reply world, world.creates ≤ 1 → (∀ u, reply = .ok u → world.Held key ⟨body, true⟩) →
      (∀ error, reply = .error error → setting.conflict error → ∃ other, world.Held key ⟨other, false⟩) →
      (next reply).Meets setting (fun world => world.creates ≤ 1) post world)
    (world : World Key Body View Error) (fresh : world.Fresh) :
    (Program.send (.create key body) next).Meets setting (fun world => world.creates ≤ 1) post world := by
  refine Program.Meets.send (.create key body) next World.Fresh (fun _ _ here drift => here.drift drift)
    (fun _ here => here.unsent.symm ▸ Nat.zero_le 1) ?_ world fresh
  intro before reply after here exchange
  refine continues reply after ?_ ?_ ?_
  · have once : after.creates = 0 + 1 := here.unsent ▸ exchange.creates
    omega
  · rintro u rfl
    exact exchange.created
  · rintro error rfl conflict
    exact here.refused conflict exchange

end

structure World.Sweeping {Key Body View Error : Type} (base : Slots Key Body) (dead : Key → Prop)
    (permit : List (Event Key Body View Error) → Key → Prop) (cleared : Key → Prop) (world : World Key Body View Error) : Prop where
  slots : ∀ key, world.slots key = base key ∨ world.slots key = none ∧ dead key
  creates : ∀ key body, .create key body ∉ world.flight
  deletes : ∀ key, .delete key ∈ world.flight → dead key
  unsent : world.creates = 0
  permitted : ∀ before event after key, world.trace = before ++ event :: after → event.request = .delete key → permit before key
  gone : ∀ key, cleared key → world.slots key = none

section

variable {Key Body View Error α : Type} [DecidableEq Key] {setting : Setting Body View Error} {base : Slots Key Body}
  {dead : Key → Prop}
    {permit : List (Event Key Body View Error) → Key → Prop} {cleared : Key → Prop} {before after : World Key Body View Error}

omit [DecidableEq Key] in
theorem World.Sweeping.start {slots : Slots Key Body} {flight : List (Request Key Body)}
    (lost : ∀ key, slots key = base key ∨ slots key = none ∧ dead key) (creates : ∀ key body, .create key body ∉ flight)
    (deletes : ∀ key, .delete key ∈ flight → dead key) :
    (World.start slots flight : World Key Body View Error).Sweeping base dead permit fun _ => False :=
  ⟨lost, creates, deletes, rfl, by simp [World.start], nofun⟩

omit [DecidableEq Key] in
theorem World.Sweeping.clear (sweeping : before.Sweeping base dead permit cleared) (more : Key → Prop)
    (gone : ∀ key, more key → before.slots key = none) : before.Sweeping base dead permit more :=
  { sweeping with gone := gone }

omit [DecidableEq Key] in
theorem World.Sweeping.present (sweeping : before.Sweeping base dead permit cleared) (key : Key) (occupant : Occupant Body)
    (here : before.slots key = some occupant) : base key = some occupant := by
  rcases sweeping.slots key with same | ⟨absent, _⟩
  · rw [← same, here]
  · rw [here] at absent
    cases absent

omit [DecidableEq Key] in
theorem World.Sweeping.vacant (sweeping : before.Sweeping base dead permit cleared) (key : Key)
    (here : before.slots key = none) : base key = none ∨ dead key := by
  rcases sweeping.slots key with same | ⟨_, dies⟩
  · exact .inl (same.symm.trans here)
  · exact .inr dies

theorem World.Sweeping.effect (sweeping : before.Sweeping base dead permit cleared) (request : Request Key Body)
    (reads : ∀ key body, request ≠ .create key body) (deletes : ∀ key, request = .delete key → dead key) :
    (∀ key, request.effect before.slots key = base key ∨ request.effect before.slots key = none ∧ dead key) ∧
      ∀ key, before.slots key = none → request.effect before.slots key = none := by
  cases request with
  | create key body => exact absurd rfl (reads key body)
  | read key => exact ⟨sweeping.slots, fun _ here => here⟩
  | delete key =>
    constructor
    · intro other
      by_cases same : other = key
      · subst same
        exact .inr ⟨Function.update_self _ _ _, deletes other rfl⟩
      · simp only [Request.effect, Function.update_of_ne same]
        exact sweeping.slots other
    · intro other here
      by_cases same : other = key
      · subst same
        exact Function.update_self _ _ _
      · simp only [Request.effect, Function.update_of_ne same]
        exact here

theorem World.Sweeping.drift (owned : ¬ setting.shared) (sweeping : before.Sweeping base dead permit cleared)
    (drift : Drift setting before after) : after.Sweeping base dead permit cleared := by
  cases drift with
  | create _ _ shared | delete _ shared => exact absurd shared owned
  | land request first rest lost =>
    have member : request ∈ before.flight := lost ▸ List.mem_append_right _ List.mem_cons_self
    have others : first ++ rest ⊆ before.flight := by
      rw [lost]
      exact List.append_subset.mpr
        ⟨List.subset_append_left _ _, List.Subset.trans (List.subset_cons_self _ _) (List.subset_append_right _ _)⟩
    obtain ⟨slots, gone⟩ := sweeping.effect request (fun key body same => sweeping.creates key body (same ▸ member))
      fun key same => sweeping.deletes key (same ▸ member)
    exact {
      slots := slots
      creates := fun key body here => sweeping.creates key body (others here)
      deletes := fun key here => sweeping.deletes key (others here)
      unsent := sweeping.unsent
      permitted := sweeping.permitted
      gone := fun key here => gone key (sweeping.gone key here) }

theorem World.Sweeping.exchange (request : Request Key Body) (reply : Except Error (request.Answer View))
    (sweeping : before.Sweeping base dead permit cleared) (reads : ∀ key body, request ≠ .create key body)
    (deletes : ∀ key, request = .delete key → dead key ∧ permit before.trace key)
    (exchange : Exchange setting before ⟨request, reply⟩ after) : after.Sweeping base dead permit cleared := by
  have unsent : after.creates = 0 := by
    have reads : request.isCreate = false := by
      cases request with
      | create key body => exact absurd rfl (reads key body)
      | read key | delete key => rfl
    rw [exchange.creates, sweeping.unsent]
    simp [reads]
  have permitted : ∀ first event rest key, after.trace = first ++ event :: rest → event.request = .delete key → permit first key := by
    intro first event rest key split here
    rw [exchange.trace] at split
    rcases List.eq_nil_or_concat rest with rfl | ⟨shorter, last, rfl⟩
    · obtain ⟨rfl, same⟩ := List.append_inj' split rfl
      cases same
      exact (deletes key here).2
    · refine sweeping.permitted first event shorter key ?_ here
      rw [List.concat_eq_append, ← List.cons_append, ← List.append_assoc] at split
      exact (List.append_inj' split rfl).1
  cases exchange with
  | answered _ _ admits =>
    obtain ⟨slots, gone⟩ := sweeping.effect request reads fun key same => (deletes key same).1
    exact ⟨slots, sweeping.creates, sweeping.deletes, unsent, permitted, fun key here => gone key (sweeping.gone key here)⟩
  | lost _ error faulty unsettled =>
    refine ⟨sweeping.slots, ?_, ?_, unsent, permitted, sweeping.gone⟩
    · intro key body here
      rcases List.mem_cons.mp here with same | there
      · exact reads key body same.symm
      · exact sweeping.creates key body there
    · intro key here
      rcases List.mem_cons.mp here with same | there
      · exact (deletes key same.symm).1
      · exact sweeping.deletes key there

variable {post : Checked α → World Key Body View Error → Prop}

theorem World.Sweeping.done (owned : ¬ setting.shared) (value : α)
    (concludes : ∀ world, world.Sweeping base dead permit cleared → post (.ok value) world)
    (world : World Key Body View Error) (sweeping : world.Sweeping base dead permit cleared) :
    (Program.done value).Meets setting (World.Sweeping base dead permit fun _ => False) post world :=
  Program.Meets.done (fun _ _ here drift => here.drift owned drift)
    (fun world here => ⟨here.clear _ nofun, concludes world here⟩) world sweeping

theorem World.Sweeping.read (owned : ¬ setting.shared) (key : Key) (next : Except Error View → Program Key Body View Error α)
    (continues : ∀ reply world, world.Sweeping base dead permit cleared → ⟨.read key, reply⟩ ∈ world.trace →
      (∀ view, reply = .ok view → ∃ occupant, base key = some occupant ∧ setting.shows view occupant.body) →
      (∀ error, reply = .error error → setting.absent error → world.slots key = none) →
      (∀ error, reply = .error error → ¬ setting.absent error → setting.faulty) →
      (next reply).Meets setting (World.Sweeping base dead permit fun _ => False) post world)
    (world : World Key Body View Error) (sweeping : world.Sweeping base dead permit cleared) :
    (Program.send (.read key) next).Meets setting (World.Sweeping base dead permit fun _ => False) post world := by
  refine Program.Meets.send (.read key) next (World.Sweeping base dead permit cleared) (fun _ _ here drift => here.drift owned drift)
    (fun _ here => here.clear _ nofun) ?_ world sweeping
  intro before reply after here exchange
  have traced : (⟨.read key, reply⟩ : Event Key Body View Error) ∈ after.trace := by
    rw [exchange.trace]
    exact List.mem_append_right _ (List.mem_singleton_self _)
  refine continues reply after (here.exchange _ reply nofun nofun exchange) traced ?_ ?_ ?_
  · rintro view rfl
    cases exchange with
    | answered _ _ admits =>
      obtain ⟨occupant, found, shown⟩ : ∃ occupant, before.slots key = some occupant ∧ setting.shows view occupant.body := admits
      exact ⟨occupant, here.present key occupant found, shown⟩
  · rintro error rfl absent
    cases exchange with
    | answered _ _ admits => exact admits.2
    | lost _ _ _ unsettled => exact absurd absent unsettled
  · rintro error rfl present
    cases exchange with
    | answered _ _ admits => exact absurd admits.1 present
    | lost _ _ faulty _ => exact faulty

theorem World.Sweeping.delete (owned : ¬ setting.shared) (key : Key) (dies : dead key)
    (known : List (Event Key Body View Error) → Prop) (permits : ∀ trace, known trace → permit trace key)
    (next : Except Error Unit → Program Key Body View Error α) (continues : ∀ reply world, world.Sweeping base dead permit cleared →
      (∀ u, reply = .ok u → world.slots key = none) →
      (∀ error, reply = .error error → setting.absent error → world.slots key = none) →
      (∀ error, reply = .error error → ¬ setting.absent error → setting.faulty) →
      (next reply).Meets setting (World.Sweeping base dead permit fun _ => False) post world)
    (world : World Key Body View Error) (sweeping : world.Sweeping base dead permit cleared) (traced : known world.trace) :
    (Program.send (.delete key) next).Meets setting (World.Sweeping base dead permit fun _ => False) post world := by
  refine Program.Meets.send (.delete key) next (fun world => world.Sweeping base dead permit cleared ∧ known world.trace)
    (fun _ _ here drift => ⟨here.1.drift owned drift, drift.trace.symm ▸ here.2⟩) (fun _ here => here.1.clear _ nofun) ?_ world
    ⟨sweeping, traced⟩
  intro before reply after here exchange
  have swept : after.Sweeping base dead permit cleared := by
    refine here.1.exchange _ reply nofun ?_ exchange
    rintro _ ⟨⟩
    exact ⟨dies, permits _ here.2⟩
  refine continues reply after swept ?_ ?_ ?_
  · rintro u rfl
    cases exchange with
    | answered _ _ admits => exact Function.update_self _ _ _
  · rintro error rfl absent
    cases exchange with
    | answered _ _ admits => exact Function.update_self _ _ _
    | lost _ _ _ unsettled => exact absurd absent unsettled
  · rintro error rfl present
    cases exchange with
    | answered _ _ admits => exact absurd admits.1 present
    | lost _ _ faulty _ => exact faulty

end

end Client
