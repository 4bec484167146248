import Custody.Proofs.CapturedCalls

/-!
# What an archive answers

Several clients share an archive.  Whatever they store, remove and ask for, in whatever order, each
answer is told by what was done before it: under a name there is the bundle that was stored last
under it and has not been removed since.  Names are listed in order and once each, and asking
changes nothing.
-/

namespace Custody.Archive

/-! ## What clients do -/

/-- What a client does. -/
inductive Action where
  | store (b : Bundle)
  | remove (id : String)
  | get (id : String)
  | ids
  | size
  | isEmpty
  | exported (id : String)

/-- What a client is answered. -/
inductive Response where
  | stored
  | bundle (b? : Option Bundle)
  | ids (names : List String)
  | size (n : Nat)
  | isEmpty (flag : Bool)
  | exported (result : Except EvidenceError String)

namespace Action

/-- Whether an action decides what is held under a name. -/
def Concerns (id : String) : Action → Prop
  | .store b => b.id = id
  | .remove name => name = id
  | _ => False

/-- Whether an action does nothing but ask. -/
def Asks : Action → Prop
  | .store _ | .remove _ => False
  | _ => True

end Action

/-- What one action does, and what is answered to it. -/
def act (a : Archive) : Action → Response × Archive
  | .store b => (.stored, a.store b)
  | .remove id =>
    let (b?, a) := a.remove id
    (.bundle b?, a)
  | .get id => (.bundle (a.get? id), a)
  | .ids => (.ids a.ids, a)
  | .size => (.size a.size, a)
  | .isEmpty => (.isEmpty a.isEmpty, a)
  | .exported id => (.exported (a.exported id), a)

/-- The answers to some actions, one after the other, and the archive after them. -/
def run : Archive → List Action → List Response × Archive
  | a, [] => ([], a)
  | a, action :: rest =>
    let (response, a) := a.act action
    let (responses, a) := run a rest
    (response :: responses, a)

/-! ## What the past tells -/

/-- A bundle is held under its name if it has been stored and since then no bundle of that name was
stored or removed. -/
def Held (past : List Action) (id : String) (b : Bundle) : Prop :=
  b.id = id ∧ ∃ before after, past = before ++ .store b :: after ∧
    ∀ action ∈ after, ¬action.Concerns id

/-- What is answered after some actions, told by these alone. -/
inductive Answers (past : List Action) : Action → Response → Prop where
  | store (b : Bundle) : Answers past (.store b) .stored
  | remove {id : String} {b? : Option Bundle} : (∀ b, b? = some b ↔ Held past id b) →
      Answers past (.remove id) (.bundle b?)
  | get {id : String} {b? : Option Bundle} : (∀ b, b? = some b ↔ Held past id b) →
      Answers past (.get id) (.bundle b?)
  | ids {names : List String} : names.Pairwise (· < ·) →
      (∀ id, id ∈ names ↔ ∃ b, Held past id b) → Answers past .ids (.ids names)
  | size {names : List String} : names.Pairwise (· < ·) →
      (∀ id, id ∈ names ↔ ∃ b, Held past id b) → Answers past .size (.size names.length)
  | isEmpty {flag : Bool} : (flag = true ↔ ∀ id b, ¬Held past id b) →
      Answers past .isEmpty (.isEmpty flag)
  | found {id : String} {b : Bundle} : Held past id b →
      Answers past (.exported id) (.exported (.ok b.toJson.canonical))
  | unknown {id : String} : (∀ b, ¬Held past id b) →
      Answers past (.exported id) (.exported (.error (.bundleNotFound id)))

/-- What is held after one more action: what that stored, or what was held before if the action is
about other names. -/
theorem held_concat_iff {past : List Action} {action : Action} {id : String} {b : Bundle} :
    Held (past ++ [action]) id b ↔
      (action = .store b ∧ b.id = id) ∨ (¬action.Concerns id ∧ Held past id b) := by
  constructor
  · rintro ⟨hid, before, after, hsplit, hafter⟩
    rcases List.eq_nil_or_concat after with rfl | ⟨between, last, rfl⟩
    · obtain ⟨-, hlast⟩ := List.append_inj' hsplit rfl
      exact .inl ⟨List.head_eq_of_cons_eq hlast, hid⟩
    · rw [List.concat_eq_append] at hsplit hafter
      rw [← List.cons_append, ← List.append_assoc] at hsplit
      obtain ⟨hpast, hlast⟩ := List.append_inj' hsplit rfl
      obtain rfl := List.head_eq_of_cons_eq hlast
      refine .inr ⟨hafter action (by simp), hid, before, between, hpast, ?_⟩
      intro other hother
      exact hafter other (List.mem_append_left _ hother)
  · rintro (⟨rfl, hid⟩ | ⟨hconcerns, hid, before, after, rfl, hafter⟩)
    · exact ⟨hid, past, [], rfl, List.forall_mem_nil _⟩
    · refine ⟨hid, before, after ++ [action], by simp, ?_⟩
      intro other hother
      rcases List.mem_append.mp hother with hother | hother
      · exact hafter other hother
      · rw [List.mem_singleton.mp hother]
        exact hconcerns

/-! ## The archive -/

section

variable {a : Archive}

theorem get?_erase_self (a : Archive) (id : String) : (a.erase id).get? id = none :=
  Assoc.lookup_erase_self id a.bundles

theorem get?_erase_of_ne (a : Archive) {id name : String} (h : id ≠ name) :
    (a.erase name).get? id = a.get? id :=
  Assoc.lookup_erase_of_ne h a.bundles

theorem pairwise_ids (a : Archive) : a.ids.Pairwise (· < ·) :=
  List.pairwise_map.mpr a.sorted

/-- The names are those under which something is found. -/
theorem mem_ids_iff {id : String} : id ∈ a.ids ↔ ∃ b, a.get? id = some b :=
  Assoc.mem_keys_iff

theorem length_ids (a : Archive) : a.ids.length = a.size :=
  List.length_map _

theorem isEmpty_iff : a.isEmpty = true ↔ ∀ id, a.get? id = none := by
  rw [isEmpty, List.isEmpty_iff]
  constructor
  · intro h id
    rw [get?, h]
    rfl
  · intro h
    apply List.map_eq_nil_iff.mp
    apply List.eq_nil_iff_forall_not_mem.mpr
    intro id hid
    obtain ⟨b, hb⟩ := mem_ids_iff.mp hid
    rw [h id] at hb
    cases hb

theorem exported_eq_ok_iff {id text : String} :
    a.exported id = .ok text ↔ ∃ b, a.get? id = some b ∧ text = b.toJson.canonical := by
  rw [exported]
  cases a.get? id with
  | none => simp
  | some b => simp [Bundle.exported, eq_comm]

theorem exported_eq_error_iff {id : String} {error : EvidenceError} :
    a.exported id = .error error ↔ a.get? id = none ∧ error = .bundleNotFound id := by
  rw [exported]
  cases a.get? id with
  | none => simp [eq_comm]
  | some b => simp

end

/-! ## Answers and the past -/

/-- Whether an archive holds what some actions have left. -/
def HoldsPast (past : List Action) (a : Archive) : Prop :=
  ∀ id b, a.get? id = some b ↔ Held past id b

theorem holdsPast_empty : HoldsPast [] empty := by
  intro id b
  constructor
  · intro h
    cases h
  · rintro ⟨-, before, after, hsplit, -⟩
    simp at hsplit

section

variable {past : List Action} {a : Archive}

theorem HoldsPast.mem_ids_iff (h : HoldsPast past a) (id : String) :
    id ∈ a.ids ↔ ∃ b, Held past id b := by
  rw [Archive.mem_ids_iff]
  exact exists_congr fun b => h id b

/-- **Each answer is told by the past.** -/
theorem HoldsPast.answers (h : HoldsPast past a) (action : Action) :
    Answers past action (a.act action).1 := by
  cases action with
  | store b => exact .store b
  | remove id => exact .remove (h id)
  | get id => exact .get (h id)
  | ids => exact .ids a.pairwise_ids h.mem_ids_iff
  | size =>
    show Answers past .size (.size a.size)
    rw [← a.length_ids]
    exact .size a.pairwise_ids h.mem_ids_iff
  | isEmpty =>
    refine .isEmpty (isEmpty_iff.trans (forall_congr' fun id => ?_))
    rw [Option.eq_none_iff_forall_ne_some]
    exact forall_congr' fun b => not_congr (h id b)
  | exported id =>
    show Answers past (.exported id) (.exported (a.exported id))
    cases hget : a.get? id with
    | none =>
      rw [exported_eq_error_iff.mpr ⟨hget, rfl⟩]
      refine .unknown fun b hheld => ?_
      rw [(h id b).mpr hheld] at hget
      cases hget
    | some b =>
      rw [exported_eq_ok_iff.mpr ⟨b, hget, rfl⟩]
      exact .found ((h id b).mp hget)

theorem act_of_asks {action : Action} (h : action.Asks) (a : Archive) : (a.act action).2 = a := by
  cases action with
  | store b | remove id => exact h.elim
  | get id | ids | size | isEmpty | exported id => rfl

/-- An action leaves alone what it does not concern. -/
theorem get?_act_of_not_concerns {action : Action} {id : String} (h : ¬action.Concerns id)
    (a : Archive) : (a.act action).2.get? id = a.get? id := by
  cases action with
  | store b => exact a.get?_store_of_ne (Ne.symm h)
  | remove name => exact a.get?_erase_of_ne (Ne.symm h)
  | get name | ids | size | isEmpty | exported name => rfl

/-- **One action** leaves what the past with it tells. -/
theorem HoldsPast.act (h : HoldsPast past a) (action : Action) :
    HoldsPast (past ++ [action]) (a.act action).2 := by
  intro id b
  rw [held_concat_iff]
  by_cases hconcerns : action.Concerns id
  · rw [or_iff_left fun hheld => hheld.1 hconcerns]
    cases action with
    | store c =>
      obtain rfl : c.id = id := hconcerns
      rw [Archive.act, get?_store_self]
      constructor
      · rintro ⟨⟩
        exact ⟨rfl, rfl⟩
      · rintro ⟨⟨⟩, -⟩
        rfl
    | remove name =>
      obtain rfl : name = id := hconcerns
      rw [Archive.act, remove, get?_erase_self]
      simp
    | get name | ids | size | isEmpty | exported name => exact hconcerns.elim
  · rw [get?_act_of_not_concerns hconcerns, h id b, or_iff_right]
    · exact (and_iff_right hconcerns).symm
    · rintro ⟨rfl, hid⟩
      exact hconcerns hid

theorem run_cons (a : Archive) (action : Action) (rest : List Action) :
    run a (action :: rest) =
      ((a.act action).1 :: (run (a.act action).2 rest).1, (run (a.act action).2 rest).2) := rfl

-- The induction is on the actions, from any archive that holds what some past has left.
/-- **Each answer of a run** is told by the past before it. -/
theorem HoldsPast.run (h : HoldsPast past a) (actions : List Action) :
    (∀ before action after, actions = before ++ action :: after →
      ∃ response, (a.run actions).1[before.length]? = some response ∧
        Answers (past ++ before) action response) ∧
    (a.run actions).1.length = actions.length ∧
    HoldsPast (past ++ actions) (a.run actions).2 := by
  induction actions generalizing past a with
  | nil =>
    refine ⟨?_, rfl, ?_⟩
    · intro before action after hsplit
      simp at hsplit
    · rw [List.append_nil]
      exact h
  | cons first rest ih =>
    obtain ⟨hanswers, hlength, hholds⟩ := ih (h.act first)
    rw [run_cons]
    refine ⟨?_, congrArg (· + 1) hlength, ?_⟩
    · intro before action after hsplit
      cases before with
      | nil =>
        cases hsplit
        refine ⟨_, rfl, ?_⟩
        rw [List.append_nil]
        exact h.answers first
      | cons head more =>
        cases hsplit
        have hanswer := hanswers more action after rfl
        rw [List.append_assoc, List.singleton_append] at hanswer
        exact hanswer
    · rw [List.append_assoc, List.singleton_append] at hholds
      exact hholds

end

/-- An archive that is a map from names to bundles, after some actions. -/
structure IsMap (past : List Action) (a : Archive) : Prop where
  /-- What is found is what was stored last under the name and not removed since. -/
  get? : ∀ id b, a.get? id = some b ↔ Held past id b
  named : ∀ entry ∈ a.bundles, entry.1 = entry.2.id
  ids_pairwise : a.ids.Pairwise (· < ·)
  mem_ids : ∀ id, id ∈ a.ids ↔ ∃ b, a.get? id = some b
  size : a.size = a.ids.length
  isEmpty : a.isEmpty = true ↔ ∀ id, a.get? id = none
  store : ∀ b, (a.store b).get? b.id = some b ∧
    ∀ id, id ≠ b.id → (a.store b).get? id = a.get? id
  remove : ∀ id, (a.remove id).1 = a.get? id ∧ (a.remove id).2.get? id = none ∧
    ∀ other, other ≠ id → (a.remove id).2.get? other = a.get? other
  exported : ∀ id text, a.exported id = .ok text ↔
    ∃ b, a.get? id = some b ∧ text = b.toJson.canonical
  unknown : ∀ id error, a.exported id = .error error ↔
    a.get? id = none ∧ error = .bundleNotFound id
  asks : ∀ action : Action, action.Asks → (a.act action).2 = a

theorem HoldsPast.isMap {past : List Action} {a : Archive} (h : HoldsPast past a) :
    IsMap past a where
  get? := h
  named := a.named
  ids_pairwise := a.pairwise_ids
  mem_ids _ := Archive.mem_ids_iff
  size := a.length_ids.symm
  isEmpty := isEmpty_iff
  store b := ⟨a.get?_store_self b, fun _ hid => a.get?_store_of_ne hid⟩
  remove id := ⟨rfl, a.get?_erase_self id, fun _ hother => a.get?_erase_of_ne hother⟩
  exported _ _ := exported_eq_ok_iff
  unknown _ _ := exported_eq_error_iff
  asks _ hasks := act_of_asks hasks a

/-- **An archive is a map from names to bundles**, whatever clients do with it and in whatever
order.  Each action is answered, and the answer is told by the actions before it; so is all that the
archive holds in the end. -/
theorem run_answers_by_the_past (actions : List Action) :
    (∀ before action after, actions = before ++ action :: after →
      ∃ response, (empty.run actions).1[before.length]? = some response ∧
        Answers before action response) ∧
    (empty.run actions).1.length = actions.length ∧
    IsMap actions (empty.run actions).2 := by
  obtain ⟨hanswers, hlength, hholds⟩ := holdsPast_empty.run actions
  exact ⟨hanswers, hlength, HoldsPast.isMap hholds⟩

/-- A bundle that is stored after another of its name was removed is the one that is found. -/
theorem run_answers_by_the_past_replaced :
    ∃ b c : Bundle, b.root ≠ c.root ∧ b.id = c.id ∧
      Answers [.store b, .remove b.id, .store c] (.get b.id) (.bundle (some c)) ∧
      Held [.store b, .remove b.id, .store c, .get b.id] b.id c := by
  let b : Bundle := ⟨Bundle.refusedParts, ⟨List.replicate 32 0, rfl⟩, by decide⟩
  let c : Bundle := { b with root := ⟨List.replicate 32 1, rfl⟩ }
  let before : List Action := [.store b, .remove b.id, .store c]
  have hget : (empty.run before).2.get? b.id = some c := get?_store_self _ c
  obtain ⟨hanswers, -, hmap⟩ := run_answers_by_the_past (before ++ [.get b.id])
  obtain ⟨response, hresponse, hanswer⟩ := hanswers before (.get b.id) [] rfl
  obtain rfl : .bundle ((empty.run before).2.get? b.id) = response := Option.some.inj hresponse
  rw [hget] at hanswer
  exact ⟨b, c, by decide, rfl, hanswer, (hmap.get? b.id c).mp hget⟩

end Custody.Archive
