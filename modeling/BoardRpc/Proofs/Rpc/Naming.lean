import BoardRpc.Proofs.Rpc.Catalogue
import BoardRpc.Proofs.Sorted

/-! Names of discovered verbs: which binding is found under the name of one. -/

namespace BoardRpc

section Told

/-! What a device tells: all that can come of the queries that are put to it. -/

variable {σ α : Type} [Transport σ]

namespace Session

/-- The sessions that queries lead to. -/
inductive Questioned (start : Session σ) : Session σ → Prop
  | here : Questioned start start
  | more {session : Session σ} (before : Questioned start session) (query : Query) :
      Questioned start (session.ask query).2

/-- Queries leave formats read right. -/
theorem Questioned.sound {start session : Session σ} (questioned : start.Questioned session)
    (sound : start.formats.Sound) : session.formats.Sound := by
  -- By induction on the queries, as each of them may read two formats more.
  induction questioned with
  | here => exact sound
  | more _ query before => exact ask_sound before query

/-- A query may be answered by what a response stands for, whatever was asked before it. -/
def Told (start : Session σ) (stands : Bytes → Option α) (query : Query) (found : α) : Prop :=
  ∃ session response, start.Questioned session ∧ (session.ask query).1 = .ok response ∧
    stands response = some found

/-- The device lists the verbs of a class. -/
def Lists (start : Session σ) (classNumber : UInt32) (numbers : List UInt32) : Prop :=
  start.Told wordsOf? (.verbs classNumber) numbers

/-- The device gives a verb of a class a name. -/
def Names (start : Session σ) (classNumber verbNumber : UInt32) (name : String) : Prop :=
  start.Told textOf? (.verbName classNumber verbNumber) name

/-- In each class the numbers of verbs are different, and so are the names of those that have
one. -/
structure DistinctVerbs (start : Session σ) : Prop where
  numbers : ∀ {classNumber : UInt32} {numbers : List UInt32}, start.Lists classNumber numbers →
    numbers.Nodup
  names : ∀ {classNumber : UInt32} {numbers : List UInt32} {one other : UInt32} {name : String},
    start.Lists classNumber numbers → one ∈ numbers → other ∈ numbers →
    start.Names classNumber one name → start.Names classNumber other name → name ≠ "" →
    one = other

end Session

end Told

section Finding

variable {σ α : Type} [Transport σ] {start : Session σ}

/-- What a script may find, its questions being answered by what the device tells. -/
def Script.Finds (start : Session σ) {α : Type} : Script α → α → Prop
  | .known result _, found => result = .ok found
  | .ask question, found => start.Told question.stands question.query found
  | .bind first next, found =>
    ∃ earlier, first.Finds start earlier ∧ (next earlier).Finds start found
  | .skip part, found => found = none ∨ part.Finds start found

/-- Whatever was asked before, a script puts queries, and what it comes to is what it may find. -/
theorem Script.finds_of_run (script : Script α) (sound : start.formats.Sound)
    {session : Session σ} (questioned : start.Questioned session) :
    start.Questioned (script.run session).2 ∧
      ∀ found, (script.run session).1 = .ok found → script.Finds start found := by
  -- By induction on the script, whatever was asked before.
  induction script generalizing session with
  | known result skips => exact ⟨questioned, fun found same => same⟩
  | ask question =>
    rw [run_ask (questioned.sound sound)]
    refine ⟨questioned.more question.query, fun found same => ?_⟩
    -- Something is found only if there is a response, and the response stands for it.
    cases asked : (session.ask question.query).1 with
    | error error =>
      rw [asked] at same
      cases same
    | ok response =>
      rw [asked] at same
      exact ⟨session, response, questioned, asked, Question.hear_eq_ok.mp same⟩
  | bind first next ih ihNext =>
    obtain ⟨kept, earlier⟩ := ih questioned
    rw [run_bind]
    rcases done : first.run session with ⟨result, left⟩
    rw [done] at kept earlier
    -- What follows is run only if something was found first.
    cases result with
    | error error => exact ⟨kept, nofun⟩
    | ok between =>
      obtain ⟨keptNext, later⟩ := ihNext between kept
      exact ⟨keptNext, fun found same => ⟨between, earlier between rfl, later found same⟩⟩
  | skip part ih =>
    obtain ⟨kept, inside⟩ := ih questioned
    rw [run_skip]
    refine ⟨kept, fun found same => ?_⟩
    cases result : (part.run session).1 with
    | ok earlier =>
      rw [result] at same
      cases same
      exact .inr (inside _ result)
    | error error =>
      -- Nothing is found of a part that is left out.
      rw [result, leftOut] at same
      split at same <;> cases same
      exact .inl rfl

end Finding

section Naming

variable {σ : Type} [Transport σ] {start : Session σ}

/-- A verb goes by the name that the device gives it, or by one made from its number if that is
empty. -/
def Session.GoesBy (start : Session σ) (classNumber verbNumber : UInt32) (name : String) : Prop :=
  ∃ given, start.Names classNumber verbNumber given ∧
    name = if given = "" then s!"verb_{verbNumber.toNat}" else given

/-- Bindings are of some of the verbs that are listed, in that order, and each goes by its name. -/
structure Session.Describes (start : Session σ) (classNumber : UInt32) (numbers : List UInt32)
    (bindings : List RpcBinding) : Prop where
  among : (bindings.map (·.verbNumber)).Sublist numbers
  named : ∀ binding ∈ bindings, start.GoesBy classNumber binding.verbNumber binding.name

/-- A class has bindings of verbs that the device lists for it. -/
def Session.Described (start : Session σ) (descriptor : ClassDescriptor) : Prop :=
  ∃ numbers, start.Lists descriptor.number numbers ∧
    start.Describes descriptor.number numbers descriptor.verbs

/-- Classes are sorted, and each is one that was known beforehand or is described. -/
structure Session.Catalogued (start : Session σ) (static api : ApiCollection) : Prop where
  sorted : SortedBy ClassDescriptor.name api.classes
  described : ∀ descriptor ∈ api.classes,
    descriptor ∈ static.classes ∨ start.Described descriptor

/-- Putting a class is putting it among classes that are sorted by name. -/
theorem insertSorted_eq (descriptor : ClassDescriptor) (classes : List ClassDescriptor) :
    ApiCollection.insertSorted descriptor classes
      = insertByKey ClassDescriptor.name descriptor classes := by
  -- Both put the class in front of the first that does not sort before it.
  induction classes with
  | nil => rfl
  | cons other rest ih => rw [ApiCollection.insertSorted, insertByKey, ih]

/-- A class that is described may be added. -/
theorem Session.Catalogued.insert {static api : ApiCollection} {descriptor : ClassDescriptor}
    (catalogued : start.Catalogued static api) (described : start.Described descriptor) :
    start.Catalogued static (api.insert descriptor) where
  sorted := by
    rw [ApiCollection.insert, insertSorted_eq]
    exact catalogued.sorted.insert descriptor
  described other here := by
    -- Every other class was there before, and of the same name there is only the new one.
    rw [ApiCollection.insert, insertSorted_eq] at here
    rcases catalogued.sorted.mem_insert.mp here with rfl | ⟨here, _⟩
    · exact .inr described
    · exact catalogued.described other here

/-- A verb that is added is bound by its number and name, or cannot be called by name. -/
theorem verbs_addVerb {descriptor next : ClassDescriptor} {verb : VerbDescriptor}
    (added : descriptor.addVerb verb = .ok next) : next.verbs = descriptor.verbs ∨
      ∃ binding : RpcBinding, next.verbs = descriptor.verbs ++ [binding] ∧
        binding.verbNumber = verb.number ∧ binding.name = verb.name := by
  unfold ClassDescriptor.addVerb at added
  split at added
  · cases added
  · -- A binding takes both from the verb.
    rename_i binding bound
    cases added
    refine .inr ⟨binding, rfl, ?_⟩
    -- Whichever of its texts are there, they do not change number and name.
    unfold VerbDescriptor.binding? RpcBinding.ofTexts at bound
    repeat' split at bound
    all_goals grind
  · cases added
    exact .inl rfl

/-- No verb of the core class has the name of another. -/
theorem core_names_nodup {core : ApiCollection} (known : ApiCollection.withCore = .ok core) :
    ∀ descriptor ∈ core.classes, (descriptor.verbs.map (·.name)).Nodup := by
  -- The core class is put together from texts, so its names are found by evaluation.
  have evaluated : ApiCollection.withCore.toOption.map
      (·.classes.map fun descriptor => descriptor.verbs.map (·.name))
        = some [CoreVerb.all.map (·.name)] := by cbv
  have names : core.classes.map (fun descriptor => descriptor.verbs.map (·.name))
      = [CoreVerb.all.map (·.name)] := by
    rw [known] at evaluated
    exact Option.some.inj evaluated
  intro descriptor here
  have verbs : descriptor.verbs.map (·.name) ∈ [CoreVerb.all.map (·.name)] :=
    names ▸ List.mem_map_of_mem here
  rw [List.mem_singleton.mp verbs]
  decide

/-- A description has the number of its verb and the name that the verb goes by. -/
theorem finds_ofVerb {classNumber verbNumber : UInt32} {verb : VerbDescriptor}
    (finds : (Script.ofVerb classNumber verbNumber).Finds start verb) :
    verb.number = verbNumber ∧ start.GoesBy classNumber verbNumber verb.name := by
  -- Of the six texts only the first has a part in it.
  obtain ⟨name, named, _, _, _, _, _, _, _, _, _, _, same⟩ := finds
  cases same
  exact ⟨rfl, name, named, by simp [String.isEmpty_iff]⟩

/-- A class is given bindings of verbs that are left, behind those that it has. -/
theorem finds_ofVerbs {descriptor found : ClassDescriptor} {numbers : List UInt32}
    (finds : (Script.ofVerbs descriptor numbers).Finds start found) :
    found.number = descriptor.number ∧ ∃ added, found.verbs = descriptor.verbs ++ added ∧
      start.Describes descriptor.number numbers added := by
  -- By induction on the verbs that are left, whatever the class has been given so far.
  induction numbers generalizing descriptor with
  | nil =>
    cases finds
    exact ⟨rfl, [], (List.append_nil _).symm, .slnil, nofun⟩
  | cons verbNumber rest ih =>
    obtain ⟨verb, described, next, added, later⟩ := finds
    -- The first verb is described and added; the class that comes of it is given the others.
    have added : descriptor.addVerb verb = .ok next := added
    obtain ⟨rfl, goesBy⟩ := finds_ofVerb described
    have same : next.number = descriptor.number := number_addVerb added
    obtain ⟨number, behind, verbs, among, named⟩ := ih later
    rw [same] at named
    refine ⟨number.trans same, ?_⟩
    -- A verb that cannot be called by name leaves the bindings as they are.
    rcases verbs_addVerb added with left | ⟨binding, bound, number, name⟩
    · exact ⟨behind, left ▸ verbs, among.cons _, named⟩
    · refine ⟨binding :: behind, by rw [verbs, bound, List.append_assoc]; rfl, ?_, ?_⟩
      · rw [List.map_cons, number]
        exact among.cons_cons _
      · exact List.forall_mem_cons.mpr ⟨by rw [number, name]; exact goesBy, named⟩

/-- A class that is found has bindings of verbs that the device lists for it. -/
theorem finds_ofClass {known : ApiCollection} {config : DiscoveryConfig} {classNumber : UInt32}
    {descriptor : ClassDescriptor}
    (finds : (Script.ofClass known config classNumber).Finds start (some descriptor)) :
    start.Described descriptor := by
  obtain ⟨name, _, rest⟩ := finds
  dsimp only at rest
  -- A class that is known and kept is not asked for.
  split at rest
  · cases rest
  · obtain ⟨docs, _, numbers, listed, found, verbs, same⟩ := rest
    cases same
    obtain ⟨number, added, verbs, describes⟩ := finds_ofVerbs verbs
    exact ⟨numbers, by rw [number]; exact listed, by rw [verbs, number]; exact describes⟩

/-- The classes that are found behind known ones are sorted, and each is described. -/
theorem finds_ofClasses {config : DiscoveryConfig} {static api found : ApiCollection}
    {classes : List UInt32} (finds : (Script.ofClasses config api classes).Finds start found)
    (catalogued : start.Catalogued static api) : start.Catalogued static found := by
  -- By induction on the classes that are left, whatever is known so far.
  induction classes generalizing api with
  | nil =>
    cases finds
    exact catalogued
  | cons classNumber rest ih =>
    -- A class that is left out changes nothing, and one that is learned is described.
    obtain ⟨earlier, first, later⟩ := finds
    cases earlier with
    | none => exact ih later catalogued
    | some descriptor =>
      rcases first with left | learned
      · cases left
      · exact ih later (catalogued.insert (finds_ofClass learned))

/-- What discovery finds is sorted, and each class but the core class is described. -/
theorem discover_catalogued (sound : start.formats.Sound) (settings : DiscoveryConfig)
    {core api : ApiCollection} {after : Session σ} (static : ApiCollection.withCore = .ok core)
    (discovered : discover settings start = (.ok api, after)) : start.Catalogued core api := by
  -- The core class is the only one that is known beforehand.
  have sorted : SortedBy ClassDescriptor.name core.classes := by
    unfold ApiCollection.withCore at static
    split at static <;> cases static
    exact List.pairwise_singleton ..
  obtain ⟨kept, _⟩ := Script.finds_of_run (.words .classes rfl) sound .here
  rw [discover_apply static] at discovered
  rcases listing : Core.getAvailableClasses start with ⟨listed, between⟩
  have kept : start.Questioned (Core.getAvailableClasses start).2 := kept
  rw [listing] at discovered kept
  cases listed with
  | error error => cases discovered
  | ok classes =>
    obtain ⟨_, finds⟩ := Script.finds_of_run (.ofClasses settings core classes) sound kept
    exact finds_ofClasses (finds api (congrArg Prod.fst discovered)) ⟨sorted, fun _ => .inl⟩

/-- One verb has no name, and another is given the very name that is made for the first. -/
structure Session.Clash (start : Session σ) (classNumber : UInt32) (nameless named : RpcBinding) :
    Prop where
  different : nameless.verbNumber ≠ named.verbNumber
  unnamed : start.Names classNumber nameless.verbNumber ""
  taken : start.Names classNumber named.verbNumber s!"verb_{nameless.verbNumber.toNat}"

/-- Two bindings of one class that go by one name are one, or clash. -/
theorem Session.Describes.one_or_clash {classNumber : UInt32} {numbers : List UInt32}
    {bindings : List RpcBinding} (describes : start.Describes classNumber numbers bindings)
    (distinct : start.DistinctVerbs) (listed : start.Lists classNumber numbers)
    {one other : RpcBinding} (here : one ∈ bindings) (there : other ∈ bindings)
    (same : one.name = other.name) :
    one = other ∨ start.Clash classNumber one other ∨ start.Clash classNumber other one := by
  by_cases number : one.verbNumber = other.verbNumber
  · -- No verb is listed twice, so it has one binding.
    have nodup := (distinct.numbers listed).sublist describes.among
    exact .inl (List.inj_on_of_nodup_map nodup here there number)
  · obtain ⟨name, given, goesBy⟩ := describes.named one here
    obtain ⟨otherName, otherGiven, otherGoesBy⟩ := describes.named other there
    rw [goesBy, otherGoesBy] at same
    have among : ∀ binding ∈ bindings, binding.verbNumber ∈ numbers :=
      fun binding member => describes.among.subset (List.mem_map_of_mem member)
    -- Names of the same origin are different, whichever origin that is.
    by_cases unnamed : name = "" <;> by_cases otherUnnamed : otherName = ""
    · rw [if_pos unnamed, if_pos otherUnnamed] at same
      exact absurd (UInt32.toNat_inj.mp (numberedKey_injective "verb_" same)) number
    · rw [if_pos unnamed, if_neg otherUnnamed] at same
      exact .inr (.inl ⟨number, unnamed ▸ given, same ▸ otherGiven⟩)
    · rw [if_neg unnamed, if_pos otherUnnamed] at same
      exact .inr (.inr ⟨Ne.symm number, otherUnnamed ▸ otherGiven, same ▸ given⟩)
    · rw [if_neg unnamed, if_neg otherUnnamed] at same
      exact absurd (distinct.names listed (among one here) (among other there) given
        (same ▸ otherGiven) unnamed) number

/-- A verb of a sorted class is looked up as the first one of its name. -/
theorem getBinding_of_mem {api : ApiCollection} (sorted : SortedBy ClassDescriptor.name api.classes)
    {descriptor : ClassDescriptor} (known : descriptor ∈ api.classes) {binding : RpcBinding}
    (here : binding ∈ descriptor.verbs) : ∃ found ∈ descriptor.verbs, found.name = binding.name ∧
      api.getBinding descriptor.name binding.name = .ok found := by
  have named : api.find? descriptor.name = some descriptor := sorted.find? known
  -- The class is found by its own name, and among its verbs there is one of the name.
  cases first : descriptor.verb? binding.name with
  | none => exact absurd (beq_self_eq_true _) (List.find?_eq_none.mp first binding here)
  | some found =>
    refine ⟨found, List.mem_of_find?_eq_some first, by simpa using List.find?_some first, ?_⟩
    simp only [ApiCollection.getBinding, ApiCollection.getClass, named, first]

/-- Over any link and after anything that was done with the session, discovery finds classes in each
of which every verb is looked up by its name as itself, unless one verb of the class has no name and
another is given the name that is made from the number of the first: those two go by one name, and
one of them is found for both. The device is to list no verb of a class twice and to give no name to
two of them. -/
theorem discovered_found (link : σ) (config : SessionConfig) (uses : List (Use σ))
    (settings : DiscoveryConfig) {api : ApiCollection} {after : Session σ}
    (distinct : (Session.past link config uses).DistinctVerbs)
    (discovered : discover settings (Session.past link config uses) = (.ok api, after)) :
    ∀ descriptor ∈ api.classes, ∀ binding ∈ descriptor.verbs, ∃ found ∈ descriptor.verbs,
      found.name = binding.name ∧ api.getBinding descriptor.name binding.name = .ok found ∧
      (found = binding ∨
        (Session.past link config uses).Clash descriptor.number found binding ∨
        (Session.past link config uses).Clash descriptor.number binding found) := by
  have sound := Session.past_sound link config uses
  generalize Session.past link config uses = start at distinct discovered sound ⊢
  obtain ⟨core, static⟩ := withCore_isOk
  have catalogued := discover_catalogued sound settings static discovered
  intro descriptor known binding here
  obtain ⟨found, there, name, lookedUp⟩ := getBinding_of_mem catalogued.sorted known here
  refine ⟨found, there, name, lookedUp, ?_⟩
  -- Names in the core class are different, those in any other are told by the device.
  rcases catalogued.described descriptor known with beforehand | ⟨numbers, listed, describes⟩
  · exact .inl (List.inj_on_of_nodup_map (core_names_nodup static descriptor beforehand) there here
      name)
  · exact describes.one_or_clash distinct listed there here name

end Naming

section Panels

variable {δ α : Type} [CommandHandler δ] {answers : UInt32 → Bytes → Except UInt32 Bytes}
  {start : Session (Loopback δ)}

/-- A session that serves does so after any queries. -/
theorem Session.Questioned.serves {session : Session (Loopback δ)} (obeys : Answers δ answers)
    (questioned : start.Questioned session) (serves : start.Serves) : session.Serves := by
  -- By induction on the queries, each of which is answered.
  induction questioned with
  | here => exact serves
  | more _ query before => exact (before.ask obeys query).1

/-- What is told of a device that answers by what is asked alone is what its answer stands for. -/
theorem Session.told_of_answers (obeys : Answers δ answers) (serves : start.Serves) {query : Query}
    {stands : Bytes → Option α} {found : α} (told : start.Told stands query found) :
    (answers query.verb.number query.payload).toOption.bind stands = some found := by
  obtain ⟨session, response, questioned, asked, stood⟩ := told
  obtain ⟨_, answered⟩ := (questioned.serves obeys serves).ask obeys query
  -- There is a response, so the device does not refuse the query.
  cases given : answers query.verb.number query.payload with
  | error errno =>
    rw [given] at answered
    cases asked.symm.trans answered
  | ok other =>
    rw [given] at answered
    cases asked.symm.trans answered
    exact stood

/-- Where the answers of a device tell verbs apart, the session does. -/
theorem Session.distinctVerbs_of_answers (obeys : Answers δ answers) (serves : start.Serves)
    (numbers : ∀ {classNumber numbers}, wordsTold? answers (.verbs classNumber) = some numbers →
      numbers.Nodup)
    (names : ∀ {classNumber numbers one other name},
      wordsTold? answers (.verbs classNumber) = some numbers → one ∈ numbers → other ∈ numbers →
      textTold? answers (.verbName classNumber one) = some name →
      textTold? answers (.verbName classNumber other) = some name → name ≠ "" → one = other) :
    start.DistinctVerbs := by
  -- What the session may be told is what the device answers, whatever was asked before.
  have lists : ∀ {classNumber numbers}, start.Lists classNumber numbers →
      wordsTold? answers (.verbs classNumber) = some numbers := by
    intro classNumber numbers listed
    exact told_of_answers obeys serves listed
  have gives : ∀ {classNumber verbNumber name}, start.Names classNumber verbNumber name →
      textTold? answers (.verbName classNumber verbNumber) = some name := by
    intro classNumber verbNumber name named
    exact told_of_answers obeys serves named
  exact {
    numbers := fun listed => numbers (lists listed)
    names := fun listed here there one other =>
      names (lists listed) here there (gives one) (gives other) }

/-- Discovery goes through the classes that are told of. -/
theorem discover_tells (obeys : Answers δ answers) (serves : start.Serves)
    {core : ApiCollection} (static : ApiCollection.withCore = .ok core) {classes : List UInt32}
    (listed : wordsTold? answers .classes = some classes) (settings : DiscoveryConfig) :
    ∃ after, discover settings start
      = (.ok (classes.foldl (learn answers settings.overwrite) core), after) := by
  -- The classes are listed first, and what is told of each follows from the answers.
  obtain ⟨_, between, asked, kept, told⟩ := Script.tells obeys (.words .classes rfl) serves
  have asked : Core.getAvailableClasses start = (_, between) := asked
  rw [Script.told_words, listed] at told
  cases told
  obtain ⟨_, after, gone, _, told⟩ := Script.tells obeys (.ofClasses settings core classes) kept
  rw [Script.told_ofClasses] at told
  cases told
  exact ⟨after, by rw [discover_apply static, asked]; exact gone⟩

end Panels

/-- A panel with two verbs. The first has no name, and the second is labelled. -/
inductive Panel (label : Bytes)
  | device

/-- What a panel answers. -/
def Panel.answers (label : Bytes) (verbNumber : UInt32) (payload : Bytes) : Except UInt32 Bytes :=
  match verbNumber with
  | 4 => .ok [1, 0, 0, 0]
  | 5 => .ok [5, 0, 0, 0, 6, 0, 0, 0]
  | 6 => if payload.drop 4 = [6, 0, 0, 0] then .ok label else .ok [0]
  | 8 => .ok [112, 97, 110, 101, 108, 0]
  | _ => .ok [0]

instance {label : Bytes} : CommandHandler (Panel label) where
  handle panel _ verbNumber payload := (Panel.answers label verbNumber payload, panel)

/-- The answers of a panel depend on nothing but what it is asked, and are short. -/
theorem Panel.obeys {label : Bytes} (short : label.length ≤ 4096) :
    Answers (Panel label) (Panel.answers label) where
  given _ _ _ _ _ := rfl
  short verbNumber payload response _ _ given := by
    unfold Panel.answers at given
    repeat' split at given
    all_goals cases given
    all_goals first | exact short | decide

/-- A session with a panel at its beginning. -/
def Panel.session (label : Bytes) : Session (Loopback (Panel label)) :=
  Session.past { device := .device } {} []

/-- A session with a panel serves. -/
theorem Panel.serves (label : Bytes) : (session label).Serves where
  ready := ⟨rfl, nofun⟩
  sound := Session.past_sound _ _ _
  limit := rfl

/-- Discovery learns the one class of a panel. -/
theorem Panel.discovered {label : Bytes} (short : label.length ≤ 4096) {core : ApiCollection}
    (static : ApiCollection.withCore = .ok core) : ∃ after,
    discover {} (session label) = (.ok (learn (answers label) false core 1), after) := by
  have listed : wordsTold? (answers label) .classes = some [1] := by cbv
  exact discover_tells (obeys short) (serves label) static listed {}

/-- A panel has two verbs with different numbers, and one of them has no name. -/
theorem Panel.distinctVerbs {label : Bytes} (short : label.length ≤ 4096) :
    (session label).DistinctVerbs := by
  -- The device lists the same two verbs for every class.
  have listed : ∀ {classNumber numbers},
      wordsTold? (answers label) (.verbs classNumber) = some numbers → numbers = [5, 6] :=
    fun told => (Option.some.inj told).symm
  have unnamed : ∀ {classNumber name},
      textTold? (answers label) (.verbName classNumber 5) = some name → name = "" := by
    intro classNumber name told
    -- The number of the verb stands behind that of its class, and it is not that of the second.
    have number : (Query.verbName classNumber 5).payload.drop 4 = [5, 0, 0, 0] :=
      List.drop_left' (Word.length_split 4 _)
    have answered : answers label 6 (Query.verbName classNumber 5).payload = .ok [0] := by
      simp only [answers, number]
      rfl
    have empty : textOf? [0] = some "" := by cbv
    have told : (answers label 6 (Query.verbName classNumber 5).payload).toOption.bind textOf?
        = some name := told
    rw [answered] at told
    exact (Option.some.inj (empty.symm.trans told)).symm
  refine Session.distinctVerbs_of_answers (obeys short) (serves label) (fun told => ?_) ?_
  · rw [listed told]
    decide
  · intro classNumber numbers one other name told here there named otherNamed nonempty
    rw [listed told] at here there
    -- A verb with a name is not the first.
    have second : ∀ {verbNumber : UInt32}, verbNumber ∈ [5, 6] →
        textTold? (answers label) (.verbName classNumber verbNumber) = some name →
        verbNumber = 6 := by
      intro verbNumber member given
      rcases List.mem_pair.mp member with rfl | rfl
      · exact absurd (unnamed given) nonempty
      · rfl
    rw [second here named, second there otherNamed]

/-- The names on a panel are the label and the empty one. -/
theorem Panel.name_cases {label : Bytes} (short : label.length ≤ 4096)
    {classNumber verbNumber : UInt32} {name : String}
    (named : (session label).Names classNumber verbNumber name) :
    name = "" ∨ textOf? label = some name := by
  have told : (answers label 6 (Query.verbName classNumber verbNumber).payload).toOption.bind
      textOf? = some name := Session.told_of_answers (obeys short) (serves label) named
  have empty : textOf? [0] = some "" := by cbv
  -- A verb has the label or no name.
  simp only [answers] at told
  split at told
  · exact .inr told
  · exact .inl (Option.some.inj (told.symm.trans empty))

/-- On a panel whose second verb is labelled set, each verb is found by its name. -/
theorem discovered_found_panel : ∃ api after, ∃ descriptor ∈ api.classes,
    discover {} (Panel.session [115, 101, 116, 0]) = (.ok api, after) ∧
    descriptor.verbs.map (·.name) = ["verb_5", "set"] ∧
    ∀ binding ∈ descriptor.verbs, api.getBinding descriptor.name binding.name = .ok binding := by
  obtain ⟨core, static⟩ := withCore_isOk
  have short : ([115, 101, 116, 0] : Bytes).length ≤ 4096 := by decide
  obtain ⟨after, discovered⟩ := Panel.discovered short static
  have evaluated : ApiCollection.withCore.toOption.bind (fun core =>
      (learn (Panel.answers [115, 101, 116, 0]) false core 1).classes[1]?.map fun descriptor =>
        descriptor.verbs.map (·.name)) = some ["verb_5", "set"] := by cbv
  rw [static] at evaluated
  obtain ⟨descriptor, second, names⟩ := Option.map_eq_some_iff.mp evaluated
  have known := List.mem_of_getElem? second
  -- Neither name on the panel is one that is made from a number.
  have clear : ∀ {one other : RpcBinding},
      ¬ (Panel.session [115, 101, 116, 0]).Clash descriptor.number one other := by
    intro one other clash
    have label : textOf? [115, 101, 116, 0] = some "set" := by cbv
    rcases Panel.name_cases short clash.taken with empty | labelled
    · simp at empty
    · -- A label that begins otherwise than a made name is none.
      have first := congrArg (fun name => name.toList.head?)
        (Option.some.inj (label.symm.trans labelled))
      rw [String.toList_append] at first
      cases first
  refine ⟨_, after, descriptor, known, discovered, names, fun binding here => ?_⟩
  obtain ⟨found, _, _, lookedUp, rfl | clash | clash⟩ :=
    discovered_found _ {} [] {} (Panel.distinctVerbs short) discovered descriptor known binding here
  · exact lookedUp
  · exact absurd clash clear
  · exact absurd clash clear

/-- On a panel whose second verb is labelled verb_5, the first one is found under that name. -/
theorem discovered_shadowed : ∃ api after, ∃ descriptor ∈ api.classes,
    ∃ binding ∈ descriptor.verbs,
    (Panel.session [118, 101, 114, 98, 95, 53, 0]).DistinctVerbs ∧
    discover {} (Panel.session [118, 101, 114, 98, 95, 53, 0]) = (.ok api, after) ∧
    binding.name = "verb_5" ∧ binding.verbNumber = 6 ∧
    api.getBinding descriptor.name binding.name ≠ .ok binding := by
  obtain ⟨core, static⟩ := withCore_isOk
  have short : ([118, 101, 114, 98, 95, 53, 0] : Bytes).length ≤ 4096 := by decide
  obtain ⟨after, discovered⟩ := Panel.discovered short static
  -- What is looked up depends on the label alone, so it is found by evaluation.
  have evaluated : ApiCollection.withCore.toOption.bind (fun core =>
      let api := learn (Panel.answers [118, 101, 114, 98, 95, 53, 0]) false core 1
      api.classes[1]?.map fun descriptor => descriptor.verbs.map fun binding =>
        (binding.name, binding.verbNumber,
          (api.getBinding descriptor.name binding.name).toOption.map (·.verbNumber)))
        = some [("verb_5", 5, some 5), ("verb_5", 6, some 5)] := by cbv
  rw [static] at evaluated
  obtain ⟨descriptor, second, looked⟩ := Option.map_eq_some_iff.mp evaluated
  -- The last binding is looked up as the first.
  have last := List.mem_cons_of_mem ("verb_5", (5 : UInt32), some (5 : UInt32))
    (List.mem_singleton_self ("verb_5", (6 : UInt32), some (5 : UInt32)))
  rw [← looked] at last
  obtain ⟨binding, here, same⟩ := List.mem_map.mp last
  simp only [Prod.mk.injEq] at same
  obtain ⟨name, number, found⟩ := same
  refine ⟨_, after, descriptor, List.mem_of_getElem? second, binding, here,
    Panel.distinctVerbs short, discovered, name, number, fun itself => ?_⟩
  rw [itself] at found
  cases number.symm.trans (Option.some.inj found)

end BoardRpc
