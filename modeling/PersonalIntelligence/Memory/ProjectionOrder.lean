import PersonalIntelligence.Memory.Accumulated

/-!
# The order of projections

The stores are read as an accumulated memory by forgetting identifiers
(`World.tableMemory`, `World.graphMemory`).  A delivery that commits does to that memory
what `TableMemory.project` and `GraphMemory.project` do, whatever identifiers it draws,
provided that the identifiers in the stores were drawn before.  So the memory after a run
depends on the commands that were committed, and not on their order.
-/

namespace PersonalIntelligence
namespace Memory

open PyText Resumption

/-! ## Names -/

namespace Db

variable (db : Db)

/-- The name of a person. -/
def personName (id : Ident) : Name :=
  match (db.person.find? fun row => row.id = id).bind (·.tgUserId) with
  | some u => .account u
  | none => .row id

/-- The name of a chat. -/
def chatName (id : Ident) : Name :=
  match db.chat.find? fun row => row.id = id with
  | some row => .account row.tgChatId
  | none => .row id

variable {db} {drawn : Ident} {id id' : Ident} {u tgChatId : ℤ}

theorem personName_eq_account_iff (h : db.PersonsSound drawn) :
    db.personName id = .account u ↔ db.HasPerson u id := by
  unfold personName
  constructor
  · intro hname
    cases hfind : db.person.find? fun row => row.id = id with
    | none =>
      rw [hfind] at hname
      cases hname
    | some row =>
      rw [hfind] at hname
      have hid : row.id = id := by simpa using List.find?_some hfind
      cases hu : row.tgUserId with
      | none =>
        rw [Option.bind_some, hu] at hname
        cases hname
      | some v =>
        rw [Option.bind_some, hu] at hname
        cases hname
        exact ⟨row, List.mem_of_find?_eq_some hfind, hu, hid⟩
  · rintro ⟨row, hrow, hu, hid⟩
    cases hfind : db.person.find? fun row => row.id = id with
    | none => exact absurd (decide_eq_true hid) (List.find?_eq_none.mp hfind row hrow)
    | some found =>
      have hfound : found.id = id := by simpa using List.find?_some hfind
      have hsame : found = row := List.inj_on_of_nodup_map h.ids.nodup
        (List.mem_of_find?_eq_some hfind) hrow (hfound.trans hid.symm)
      rw [hsame, Option.bind_some, hu]

theorem personName_eq_row (hnone : ∀ u, db.personName id ≠ .account u) : db.personName id = .row id := by
  unfold personName at hnone ⊢
  cases hfind : (db.person.find? fun row => row.id = id).bind (·.tgUserId) with
  | none => rfl
  | some u =>
    rw [hfind] at hnone
    exact absurd rfl (hnone u)

/-- Persons have names of their own. -/
theorem personName_injective (h : db.PersonsSound drawn) : Function.Injective db.personName := by
  intro id id' hname
  by_cases haccount : ∃ u, db.personName id = .account u
  · obtain ⟨u, hu⟩ := haccount
    exact h.accounts u id id' ((personName_eq_account_iff h).mp hu)
      ((personName_eq_account_iff h).mp (hname ▸ hu))
  · have hnone : ∀ u, db.personName id ≠ .account u := fun u hu => haccount ⟨u, hu⟩
    have hrow := personName_eq_row hnone
    have hrow' := personName_eq_row fun u => hname ▸ hnone u
    rw [hname, hrow'] at hrow
    exact (Name.row.inj hrow).symm

/-- A name depends on the accounts of the person. -/
theorem personName_congr {db' : Db} {drawn' : Ident} (h : db.PersonsSound drawn)
    (h' : db'.PersonsSound drawn') (hsame : ∀ u, db'.HasPerson u id ↔ db.HasPerson u id) :
    db'.personName id = db.personName id := by
  by_cases haccount : ∃ u, db.personName id = .account u
  · obtain ⟨u, hu⟩ := haccount
    rw [hu]
    exact (personName_eq_account_iff h').mpr ((hsame u).mpr ((personName_eq_account_iff h).mp hu))
  · have hnone : ∀ u, db.personName id ≠ .account u := fun u hu => haccount ⟨u, hu⟩
    rw [personName_eq_row hnone]
    exact personName_eq_row fun u hu => hnone u
      ((personName_eq_account_iff h).mpr ((hsame u).mp ((personName_eq_account_iff h').mp hu)))

theorem chatName_of_hasChat (h : db.ChatsSound drawn) (hchat : db.HasChat tgChatId id) :
    db.chatName id = .account tgChatId := by
  unfold chatName
  cases hfind : db.chat.find? fun row => row.id = id with
  | none =>
    obtain ⟨row, hrow, -, hid⟩ := hchat
    exact absurd (decide_eq_true hid) (List.find?_eq_none.mp hfind row hrow)
  | some found =>
    have hfound : found.id = id := by simpa using List.find?_some hfind
    exact congrArg Name.account
      (h.tgChatId_eq ⟨found, List.mem_of_find?_eq_some hfind, rfl, hfound⟩ hchat)

theorem chatName_of_not_hasChat (hnone : ∀ tgChatId, ¬ db.HasChat tgChatId id) :
    db.chatName id = .row id := by
  unfold chatName
  cases hfind : db.chat.find? fun row => row.id = id with
  | none => rfl
  | some found =>
    have hfound : found.id = id := by simpa using List.find?_some hfind
    exact absurd ⟨found, List.mem_of_find?_eq_some hfind, rfl, hfound⟩ (hnone found.tgChatId)

theorem chatName_congr {db' : Db} {drawn' : Ident} (h : db.ChatsSound drawn)
    (h' : db'.ChatsSound drawn') (hsame : ∀ c, db'.HasChat c id ↔ db.HasChat c id) :
    db'.chatName id = db.chatName id := by
  by_cases hchat : ∃ c, db.HasChat c id
  · obtain ⟨c, hc⟩ := hchat
    rw [chatName_of_hasChat h hc, chatName_of_hasChat h' ((hsame c).mpr hc)]
  · rw [chatName_of_not_hasChat fun c hc => hchat ⟨c, hc⟩,
      chatName_of_not_hasChat fun c hc => hchat ⟨c, (hsame c).mp hc⟩]

end Db

/-! ## Reading the stores -/

def Person.memory (row : Person) : PersonMemory where
  topics := {topic | topic ∈ row.topics}
  lastInteractionAt := row.lastInteractionAt
  isOwner := row.isOwner

/-- The row of a window, with the name of its chat in place of the identifier. -/
def AnalysisWindow.named (name : Ident → Name) (row : AnalysisWindow) : Name × AnalysisWindow :=
  (name row.chatId, { row with chatId := 0 })

/-- The graph by names. -/
def Graph.named (name : Ident → Name) (g : Graph) : GraphMemory where
  chats := {chat | chat ∈ g.chats.map (·.1)}
  persons := {node | ∃ n ∈ g.persons, node = (name n.1, n.2)}
  topics := {topic | topic ∈ g.topics}
  participatesIn := {r | ∃ x ∈ g.participatesIn, r = (name x.1, x.2)}
  discusses := {r | r ∈ g.discusses}
  mentionedTopic := {r | ∃ x ∈ g.mentionedTopic, r = (name x.1, x.2)}
  weights q := (g.communicatedWith.filter fun edge =>
    s(name edge.personA, name edge.personB) = q).map (·.weight)

/-- The accumulated memory of a state. -/
def World.tableMemory (s : World) : TableMemory where
  person key := (s.db.person.filter (·.tgUserId = key)).map Person.memory
  membership := {m | ∃ x ∈ s.db.chatMembership, m = (s.db.chatName x.chatId, s.db.personName x.personId)}
  windows w := (s.db.analysisWindow.filter (·.id = w)).map (AnalysisWindow.named s.db.chatName)
  facts w := s.db.extractedFact.filter (·.windowId = w)
  signals w := s.db.analyticsSignal.filter (·.windowId = w)

def World.graphMemory (s : World) : GraphMemory := s.graph.named s.db.personName

/-- Every person in the graph was drawn. -/
structure Graph.Within (g : Graph) (drawn : Ident) : Prop where
  nodes : ∀ node ∈ g.persons, node.1 < drawn
  participatesIn : ∀ r ∈ g.participatesIn, r.1 < drawn
  mentionedTopic : ∀ r ∈ g.mentionedTopic, r.1 < drawn
  weights : ∀ pair, g.weights pair ≠ [] → ∀ id ∈ pair, id < drawn

/-- The stores keep their constraints, and every identifier in them was drawn. -/
structure Coherent (s : World) : Prop where
  closed : s.tx = none
  persons : s.db.PersonsSound s.drawn
  chats : s.db.ChatsSound s.drawn
  members : ∀ m ∈ s.db.chatMembership, m.chatId < s.drawn ∧ m.personId < s.drawn
  windows : ∀ row ∈ s.db.analysisWindow, row.chatId < s.drawn
  graph : s.graph.Within s.drawn

/-! ## The graph by names -/

namespace Graph

variable {command : ProjectionCommand} {participantMap : ParticipantMap} {g g' : Graph}
  {name name' : Ident → Name}

/-- The weights of two persons, by their names, -/
theorem weights_named (hname : Function.Injective name) (g : Graph) (pair : Sym2 Ident) :
    (g.named name).weights (pair.map name) = g.weights pair := by
  unfold named weights
  dsimp only
  refine congrArg (List.map _) (List.filter_congr fun edge _ => ?_)
  rw [decide_eq_decide, ← Sym2.map_mk, (Sym2.map.injective hname).eq_iff]

/-- and of names that are not of persons. -/
theorem weights_named_of_forall_ne {q : Sym2 Name} (hq : ∀ pair : Sym2 Ident, pair.map name ≠ q)
    (g : Graph) : (g.named name).weights q = [] := by
  unfold named
  dsimp only
  rw [List.map_eq_nil_iff, List.filter_eq_nil_iff]
  intro edge _ hedge
  exact hq s(edge.personA, edge.personB) (of_decide_eq_true hedge)

/-- The relationships of participants, by their names. -/
theorem relationships_named {α : Type} {old new : List (Ident × α)} {P : α → Prop} {ids : List Ident}
    {accounts : List ℤ} (hids : ∀ id, id ∈ ids ↔ ∃ u ∈ accounts, name id = .account u)
    (haccounts : ∀ u ∈ accounts, ∃ id ∈ ids, name id = .account u)
    (h : ∀ r, r ∈ new ↔ r ∈ old ∨ (r.1 ∈ ids ∧ P r.2)) (x : Name × α) :
    (∃ r ∈ new, x = (name r.1, r.2)) ↔
      (∃ r ∈ old, x = (name r.1, r.2)) ∨ ((∃ u ∈ accounts, x.1 = .account u) ∧ P x.2) := by
  constructor
  · rintro ⟨r, hr, rfl⟩
    rcases (h r).mp hr with hold | ⟨hid, hP⟩
    · exact .inl ⟨r, hold, rfl⟩
    · exact .inr ⟨(hids r.1).mp hid, hP⟩
  · rintro (⟨r, hold, rfl⟩ | ⟨⟨u, hu, hx⟩, hP⟩)
    · exact ⟨r, (h r).mpr (.inl hold), rfl⟩
    · obtain ⟨id, hid, hname⟩ := haccounts u hu
      exact ⟨(id, x.2), (h _).mpr (.inr ⟨hid, hP⟩), Prod.ext (hx.trans hname.symm) rfl⟩

/-- The pairs of participants are the pairs of senders, by their names. -/
theorem mem_combinations_named {ids : List Ident} (hname : Function.Injective name)
    (hnodup : ids.Nodup)
    (hids : ∀ id, id ∈ ids ↔ ∃ u ∈ senders command.messages, name id = .account u)
    (haccounts : ∀ u ∈ senders command.messages, ∃ id ∈ ids, name id = .account u)
    (pair : Sym2 Ident) :
    pair ∈ (combinations ids).map (fun pair => s(pair.1, pair.2)) ↔
      SenderPair command (pair.map name) := by
  rw [mem_combinations_iff hnodup]
  constructor
  · rintro ⟨a, ha, b, hb, hne, rfl⟩
    obtain ⟨u, hu, hua⟩ := (hids a).mp ha
    obtain ⟨v, hv, hvb⟩ := (hids b).mp hb
    refine ⟨u, hu, v, hv, fun huv => hne (hname ?_), ?_⟩
    · rw [hua, hvb, huv]
    · rw [Sym2.map_mk, hua, hvb]
  · rintro ⟨u, hu, v, hv, hne, hq⟩
    obtain ⟨a, ha, hua⟩ := haccounts u hu
    obtain ⟨b, hb, hvb⟩ := haccounts v hv
    refine ⟨a, ha, b, hb, fun hab => hne (Name.account.inj ?_), Sym2.map.injective hname ?_⟩
    · rw [← hua, ← hvb, hab]
    · rw [hq, Sym2.map_mk, hua, hvb]

/-- A projection counts the window for every two of its senders. -/
theorem Grows.weights_named (h : Grows command participantMap g g')
    (hname : Function.Injective name) (hnodup : (participantMap.map (·.2)).Nodup)
    (hids : ∀ id, id ∈ participantMap.map (·.2) ↔
      ∃ u ∈ senders command.messages, name id = .account u)
    (haccounts : ∀ u ∈ senders command.messages,
      ∃ id ∈ participantMap.map (·.2), name id = .account u) (q : Sym2 Name) :
    (g'.named name).weights q = ((g.named name).project command).weights q := by
  unfold GraphMemory.project
  dsimp only
  by_cases hq : ∃ pair : Sym2 Ident, pair.map name = q
  · obtain ⟨pair, rfl⟩ := hq
    have hpair := @mem_combinations_named command name _ hname hnodup hids haccounts pair
    rw [Graph.weights_named hname, Graph.weights_named hname, h.weights]
    split_ifs with hmem hpair' hpair'
    · rfl
    · exact absurd (hpair.mp hmem) hpair'
    · exact absurd (hpair.mpr hpair') hmem
    · rfl
  · have hne : ∀ pair : Sym2 Ident, pair.map name ≠ q := fun pair hpair => hq ⟨pair, hpair⟩
    have hnot : ¬ SenderPair command q := by
      rintro ⟨u, hu, v, hv, -, rfl⟩
      obtain ⟨a, -, hua⟩ := haccounts u hu
      obtain ⟨b, -, hvb⟩ := haccounts v hv
      exact hne s(a, b) (by rw [Sym2.map_mk, hua, hvb])
    rw [weights_named_of_forall_ne hne, weights_named_of_forall_ne hne, if_neg hnot]

/-- **A projection, by names**, if persons have names of their own and the participants
those of the senders. -/
theorem Grows.named (h : Grows command participantMap g g') (hname : Function.Injective name)
    (hnodup : (participantMap.map (·.2)).Nodup)
    (hentries : ∀ entry ∈ participantMap, name entry.2 = .account entry.1)
    (hsenders : ∀ u, u ∈ participantMap.map (·.1) ↔ u ∈ senders command.messages) :
    g'.named name = (g.named name).project command := by
  have haccounts : ∀ u ∈ senders command.messages,
      ∃ id ∈ participantMap.map (·.2), name id = .account u := by
    intro u hu
    obtain ⟨entry, hentry, rfl⟩ := List.mem_map.mp ((hsenders u).mpr hu)
    exact ⟨entry.2, List.mem_map_of_mem hentry, hentries entry hentry⟩
  have hids : ∀ id, id ∈ participantMap.map (·.2) ↔
      ∃ u ∈ senders command.messages, name id = .account u := by
    intro id
    constructor
    · intro hid
      obtain ⟨entry, hentry, rfl⟩ := List.mem_map.mp hid
      exact ⟨entry.1, (hsenders _).mp (List.mem_map_of_mem hentry), hentries entry hentry⟩
    · rintro ⟨u, hu, hid⟩
      obtain ⟨id', hid', hname'⟩ := haccounts u hu
      rwa [hname (hid.trans hname'.symm)]
  ext x : 2
  · exact h.chats x
  · constructor
    · rintro ⟨node, hnode, rfl⟩
      rcases (h.persons node).mp hnode with ⟨hold, hnot⟩ | hentry
      · exact .inl ⟨⟨node, hold, rfl⟩, fun u hu hid => hnot ((hids node.1).mpr ⟨u, hu, hid⟩)⟩
      · refine .inr ⟨node.2, (hsenders _).mp (List.mem_map_of_mem hentry), ?_⟩
        exact Prod.ext (hentries _ hentry) rfl
    · rintro (⟨⟨node, hold, rfl⟩, hnot⟩ | ⟨u, hu, rfl⟩)
      · refine ⟨node, (h.persons node).mpr (.inl ⟨hold, fun hid => ?_⟩), rfl⟩
        obtain ⟨u, hu, hid⟩ := (hids node.1).mp hid
        exact hnot u hu hid
      · obtain ⟨entry, hentry, rfl⟩ := List.mem_map.mp ((hsenders u).mpr hu)
        exact ⟨(entry.2, entry.1), (h.persons _).mpr (.inr hentry),
          Prod.ext (hentries entry hentry).symm rfl⟩
  · exact h.topics x
  · exact @relationships_named name _ _ _ (· = command.tgChatId) _ _ hids haccounts h.participatesIn x
  · exact h.discusses x
  · exact @relationships_named name _ _ _ (· ∈ command.result.topics) _ _ hids haccounts
      h.mentionedTopic x
  · exact h.weights_named hname hnodup hids haccounts x

namespace Within

variable {drawn drawn' : Ident}

/-- The graph knows the names of those that were drawn. -/
theorem named_congr (h : g.Within drawn) (hname : ∀ id < drawn, name id = name' id) :
    g.named name = g.named name' := by
  have hrows : ∀ {α : Type} {rows : List (Ident × α)}, (∀ r ∈ rows, r.1 < drawn) →
      ∀ x : Name × α, (∃ r ∈ rows, x = (name r.1, r.2)) ↔ ∃ r ∈ rows, x = (name' r.1, r.2) := by
    intro α rows hrows x
    refine exists_congr fun r => and_congr_right fun hr => ?_
    rw [hname r.1 (hrows r hr)]
  ext x : 2
  · exact Iff.rfl
  · exact hrows h.nodes x
  · exact Iff.rfl
  · exact hrows h.participatesIn x
  · exact Iff.rfl
  · exact hrows h.mentionedTopic x
  · refine congrArg (List.map _) (List.filter_congr fun edge hedge => ?_)
    have hweights : g.weights s(edge.personA, edge.personB) ≠ [] := by
      unfold Graph.weights
      rw [Ne, List.map_eq_nil_iff, List.filter_eq_nil_iff]
      exact fun hnone => hnone edge hedge (decide_eq_true rfl)
    rw [hname _ (h.weights _ hweights edge.personA (Sym2.mem_mk_left _ _)),
      hname _ (h.weights _ hweights edge.personB (Sym2.mem_mk_right _ _))]

theorem mono (h : g.Within drawn) (hle : drawn ≤ drawn') : g.Within drawn' where
  nodes node hnode := (h.nodes node hnode).trans_le hle
  participatesIn r hr := (h.participatesIn r hr).trans_le hle
  mentionedTopic r hr := (h.mentionedTopic r hr).trans_le hle
  weights pair hpair id hid := (h.weights pair hpair id hid).trans_le hle

/-- A projection adds its participants. -/
theorem grows (h : g.Within drawn) (hgrows : Grows command participantMap g g')
    (hids : ∀ id ∈ participantMap.map (·.2), id < drawn) : g'.Within drawn where
  nodes node hnode := by
    rcases (hgrows.persons node).mp hnode with ⟨hold, -⟩ | hentry
    · exact h.nodes node hold
    · exact hids _ (List.mem_map_of_mem hentry)
  participatesIn r hr := by
    rcases (hgrows.participatesIn r).mp hr with hold | ⟨hid, -⟩
    · exact h.participatesIn r hold
    · exact hids _ hid
  mentionedTopic r hr := by
    rcases (hgrows.mentionedTopic r).mp hr with hold | ⟨hid, -⟩
    · exact h.mentionedTopic r hold
    · exact hids _ hid
  weights pair hpair id hid := by
    rw [hgrows.weights] at hpair
    split_ifs at hpair with hmem
    · obtain ⟨p, hp, rfl⟩ := List.mem_map.mp hmem
      obtain ⟨hA, hB⟩ := mem_of_mem_combinations hp
      rcases Sym2.mem_iff.mp hid with rfl | rfl
      · exact hids _ hA
      · exact hids _ hB
    · exact h.weights pair hpair id hid

end Within

end Graph

/-! ## A delivery -/

section Tables

variable [CharData] {settings : Settings} {now : Timestamp} {command : ProjectionCommand} {t : Draft}

omit [CharData] in
/-- Enrolling a person is an upsert of its memory, -/
theorem person_enrol (t : Draft) (now : Timestamp) (chatId : Ident) (p : PersonUpsert) :
    (fun key => ((t.enrol now chatId p).db.person.filter (·.tgUserId = key)).map Person.memory) =
      recallPerson (fun key => (t.db.person.filter (·.tgUserId = key)).map Person.memory) p := by
  funext key
  rw [Draft.enrol_person]
  unfold recallPerson
  by_cases hkey : key = some p.tgUserId
  · subst hkey
    have hrows : (t.db.upsertPerson now t.drawn p).person.filter (·.tgUserId = some p.tgUserId) =
        Table.put (p.merge now) (p.fresh now t.drawn)
          (t.db.person.filter (·.tgUserId = some p.tgUserId)) :=
      @Table.filter_upsert_self _ _ _ Person.tgUserId (p.merge now) (p.fresh now t.drawn) _
        fun _ h => h
    rw [Function.update_self, hrows]
    refine Table.map_put (fun row => ?_) _
    unfold Person.memory PersonUpsert.merge PersonUpsert.recall
    ext1
    · ext topic
      show topic ∈ ((row.topics ++ p.topics).filter (· ≠ "")).dedup ↔
        (topic ∈ row.topics ∨ topic ∈ p.topics) ∧ topic ≠ ""
      rw [List.mem_dedup, List.mem_filter, List.mem_append, decide_eq_true_iff]
    · rfl
    · rfl
  · rw [Function.update_of_ne hkey]
    have hrows : (t.db.upsertPerson now t.drawn p).person.filter (·.tgUserId = key) =
        t.db.person.filter (·.tgUserId = key) :=
      @Table.filter_upsert_of_ne _ _ _ Person.tgUserId (p.merge now) (p.fresh now t.drawn) _
        (fun _ h => h) _ hkey
    rw [hrows]

omit [CharData] in
/-- and so is enrolling them all. -/
theorem person_enrolAll (t : Draft) (now : Timestamp) (chatId : Ident) (persons : List PersonUpsert) :
    (fun key => ((t.enrolAll now chatId persons).db.person.filter (·.tgUserId = key)).map
        Person.memory) =
      persons.foldl recallPerson
        (fun key => (t.db.person.filter (·.tgUserId = key)).map Person.memory) := by
  induction persons generalizing t with
  | nil => rfl
  | cons p rest ih =>
    rw [List.foldl_cons, ← person_enrol t now chatId p]
    exact ih (t.enrol now chatId p)

/-- The names of those that were there. -/
theorem personName_project (h : t.db.PersonsSound t.drawn) {id : Ident} (hid : id < t.drawn) :
    (t.project settings now command).2.db.personName id = t.db.personName id := by
  refine Db.personName_congr h (Draft.personsSound_project settings now command h) fun u => ?_
  refine ⟨fun hperson => ?_, t.hasPerson_project settings now command⟩
  exact (Draft.hasPerson_of_project hperson).resolve_right fun hnew => absurd hid (not_lt.mpr hnew.1)

theorem chatName_project (h : t.db.ChatsSound t.drawn) {id : Ident} (hid : id < t.drawn) :
    (t.project settings now command).2.db.chatName id = t.db.chatName id := by
  refine Db.chatName_congr h (h.project settings now command) fun c => ?_
  refine ⟨fun hchat => ?_, t.hasChat_project settings now command⟩
  exact (t.hasChat_of_project settings now command hchat).resolve_right (ne_of_lt hid)

/-- The name of the command's chat. -/
theorem chatName_project_self (h : t.db.ChatsSound t.drawn) :
    (t.project settings now command).2.db.chatName (t.db.chatId command.tgChatId t.drawn) =
      .account command.tgChatId :=
  Db.chatName_of_hasChat (h.project settings now command)
    (t.hasChat_project_self settings now command)

/-- The participants are those with the name of a sender. -/
theorem mem_participantIds_iff_name (h : t.db.PersonsSound t.drawn) {id : Ident} :
    id ∈ (t.participantsOf settings now command).map (·.2) ↔
      ∃ u ∈ senders command.messages,
        (t.project settings now command).2.db.personName id = .account u := by
  have hsound := Draft.personsSound_project settings now command h
  constructor
  · intro hid
    obtain ⟨entry, hentry, rfl⟩ := List.mem_map.mp hid
    have hperson := (t.participant_project settings now command hentry).1
    exact ⟨entry.1, (Draft.mem_participantIds_iff h hperson).mp hid,
      (Db.personName_eq_account_iff hsound).mpr hperson⟩
  · rintro ⟨u, hu, hname⟩
    exact (Draft.mem_participantIds_iff h ((Db.personName_eq_account_iff hsound).mp hname)).mpr hu

/-- The row of the window, apart from its chat. -/
theorem storedWindow_eq (t : Draft) (chatId : Ident) :
    { windowRow chatId (t.participantsOf settings now command) command with
      chatId := 0
      confidence := numeric3 command.result.confidence } = storedWindow settings command := by
  unfold windowRow storedWindow
  rw [t.map_participantsOf settings now command]

end Tables

section Delivery

variable [CharData] {env : Env} {settings : Settings} {s s' : World} {command : ProjectionCommand}
  {now : Timestamp}

namespace Coherent

theorem personName_eq (h : Coherent s) (hp : Projects env settings command now s s') {id : Ident}
    (hid : id < s.drawn) : s'.db.personName id = s.db.personName id := by
  have hdb : s.draft.db = s.db := World.tables_of_closed h.closed
  rw [hp.db, ← hdb]
  exact personName_project (t := s.draft) (hdb ▸ h.persons) hid

theorem chatName_eq (h : Coherent s) (hp : Projects env settings command now s s') {id : Ident}
    (hid : id < s.drawn) : s'.db.chatName id = s.db.chatName id := by
  have hdb : s.draft.db = s.db := World.tables_of_closed h.closed
  rw [hp.db, ← hdb]
  exact chatName_project (t := s.draft) (hdb ▸ h.chats) hid

theorem chatName_self (h : Coherent s) (hp : Projects env settings command now s s') :
    s'.db.chatName (s.db.chatId command.tgChatId s.drawn) = .account command.tgChatId := by
  have hdb : s.draft.db = s.db := World.tables_of_closed h.closed
  rw [hp.db, ← hdb]
  exact chatName_project_self (t := s.draft) (hdb ▸ h.chats)

theorem mem_participantIds (h : Coherent s) (hp : Projects env settings command now s s')
    {id : Ident} : id ∈ (s.draft.participantsOf settings now command).map (·.2) ↔
      ∃ u ∈ senders command.messages, s'.db.personName id = .account u := by
  have hdb : s.draft.db = s.db := World.tables_of_closed h.closed
  rw [hp.db]
  exact mem_participantIds_iff_name (t := s.draft) (hdb ▸ h.persons)

/-- A participant has the name of a sender. -/
theorem personName_participant (h : Coherent s) (hp : Projects env settings command now s s')
    {entry : ℤ × Ident} (hentry : entry ∈ s.draft.participantsOf settings now command) :
    s'.db.personName entry.2 = .account entry.1 := by
  have hsound := hp.personsSound h.closed h.persons
  exact (Db.personName_eq_account_iff hsound).mpr (hp.hasPerson_participant hentry)

/-- The persons after a delivery that commits, -/
theorem person_project (h : Coherent s) (hp : Projects env settings command now s s') :
    s'.tableMemory.person =
      (participants settings command).foldl recallPerson s.tableMemory.person := by
  have hdb : s.draft.db = s.db := World.tables_of_closed h.closed
  have hrows : s'.db.person = ((s.draft.upsertChat command).enrolAll now
      (s.draft.db.chatId command.tgChatId s.draft.drawn) (participants settings command)).db.person := by
    rw [hp.db]
    exact s.draft.project_person settings now command
  have hold : s.tableMemory.person = fun key =>
      ((s.draft.upsertChat command).db.person.filter (·.tgUserId = key)).map Person.memory := by
    show (fun key => (s.db.person.filter (·.tgUserId = key)).map Person.memory) = _
    rw [← hdb]
    rfl
  rw [hold, ← person_enrolAll]
  unfold World.tableMemory
  dsimp only
  rw [hrows]

/-- the members, -/
theorem membership_project (h : Coherent s) (hp : Projects env settings command now s s') :
    s'.tableMemory.membership = {m | m ∈ s.tableMemory.membership ∨
      (m.1 = .account command.tgChatId ∧ ∃ u ∈ senders command.messages, m.2 = .account u)} := by
  have hdb : s.draft.db = s.db := World.tables_of_closed h.closed
  have hmembers : ∀ member, member ∈ s'.db.chatMembership ↔ member ∈ s.db.chatMembership ∨
      ∃ entry ∈ s.draft.participantsOf settings now command,
        member = ⟨s.db.chatId command.tgChatId s.drawn, entry.2⟩ := by
    intro member
    rw [hp.db, Draft.mem_project_chatMembership, hdb]
    rfl
  ext ⟨chat, person⟩
  constructor
  · rintro ⟨x, hx, hname⟩
    obtain ⟨rfl, rfl⟩ := Prod.ext_iff.mp hname
    rcases (hmembers x).mp hx with hold | ⟨entry, hentry, rfl⟩
    · obtain ⟨hchat, hperson⟩ := h.members x hold
      exact .inl ⟨x, hold, Prod.ext (h.chatName_eq hp hchat) (h.personName_eq hp hperson)⟩
    · exact .inr ⟨h.chatName_self hp, (h.mem_participantIds hp).mp (List.mem_map_of_mem hentry)⟩
  · rintro (⟨x, hx, hname⟩ | ⟨hchat, u, hu, hperson⟩)
    · obtain ⟨hchat, hperson⟩ := h.members x hx
      refine ⟨x, (hmembers x).mpr (.inl hx), ?_⟩
      rw [h.chatName_eq hp hchat, h.personName_eq hp hperson]
      exact hname
    · obtain ⟨entry, hentry, rfl⟩ :=
        List.mem_map.mp ((s.draft.mem_participantsOf settings now command u).mpr hu)
      refine ⟨_, (hmembers _).mpr (.inr ⟨entry, hentry, rfl⟩), Prod.ext ?_ ?_⟩
      · exact hchat.trans (h.chatName_self hp).symm
      · exact hperson.trans (h.personName_participant hp hentry).symm

/-- and the windows. -/
theorem windows_project (h : Coherent s) (hp : Projects env settings command now s s') :
    s'.tableMemory.windows = Function.update s.tableMemory.windows command.sourceWindowId
      (Table.put (replacedWindow settings command)
        (.account command.tgChatId, storedWindow settings command)
        (s.tableMemory.windows command.sourceWindowId)) := by
  have hwindows := hp.analysisWindow h.closed
  set fresh := windowRow (s.db.chatId command.tgChatId s.drawn)
    (s.draft.participantsOf settings now command) command with hfresh
  have hnames : ∀ w, (s.db.analysisWindow.filter (·.id = w)).map
        (AnalysisWindow.named s'.db.chatName) = s.tableMemory.windows w := by
    intro w
    refine List.map_congr_left fun row hrow => ?_
    have hchat := h.windows row (List.mem_filter.mp hrow).1
    unfold AnalysisWindow.named
    rw [h.chatName_eq hp hchat]
  set replace : AnalysisWindow → AnalysisWindow := fun row => { fresh with
    chatId := row.chatId
    tgChatId := row.tgChatId
    chatType := row.chatType
    windowStart := row.windowStart
    confidence := numeric3 fresh.confidence } with hreplace
  set stored : AnalysisWindow := { fresh with confidence := numeric3 fresh.confidence } with hstored
  have hsame : { stored with chatId := 0 } = storedWindow settings command :=
    storedWindow_eq s.draft (s.db.chatId command.tgChatId s.drawn)
  funext w
  show (s'.db.analysisWindow.filter (·.id = w)).map (AnalysisWindow.named s'.db.chatName) = _
  by_cases hw : w = command.sourceWindowId
  · have hrows : s'.db.analysisWindow.filter (·.id = w) =
        Table.put replace stored (s.db.analysisWindow.filter (·.id = w)) := by
      rw [hwindows, hw]
      exact @Table.filter_upsert_self _ _ _ AnalysisWindow.id replace stored _ fun _ _ => rfl
    have hmap : ∀ row, (replace row).named s'.db.chatName =
        replacedWindow settings command (row.named s'.db.chatName) := by
      intro row
      unfold replacedWindow
      rw [← hsame]
      rfl
    have hnew : stored.named s'.db.chatName =
        (.account command.tgChatId, storedWindow settings command) := by
      rw [← hsame]
      exact congrArg (·, { stored with chatId := 0 }) (h.chatName_self hp)
    rw [hrows, hw, Function.update_self, ← hnames, ← hnew]
    exact Table.map_put hmap _
  · have hrows : s'.db.analysisWindow.filter (·.id = w) =
        s.db.analysisWindow.filter (·.id = w) := by
      rw [hwindows]
      exact @Table.filter_upsert_of_ne _ _ _ AnalysisWindow.id replace stored _ (fun _ _ => rfl) _ hw
    rw [hrows, Function.update_of_ne hw, hnames]

/-- **The tables** after a delivery that commits. -/
theorem tableMemory_project (h : Coherent s) (hp : Projects env settings command now s s') :
    s'.tableMemory = s.tableMemory.project settings command := by
  ext1
  · exact h.person_project hp
  · exact h.membership_project hp
  · exact h.windows_project hp
  · funext w
    refine (hp.filter_extractedFact h.closed w).trans ?_
    exact (Function.update_apply s.tableMemory.facts command.sourceWindowId _ w).symm
  · funext w
    refine (hp.filter_analyticsSignal h.closed w).trans ?_
    exact (Function.update_apply s.tableMemory.signals command.sourceWindowId _ w).symm

/-- **The graph** after a delivery that commits. -/
theorem graphMemory_project (h : Coherent s) (hp : Projects env settings command now s s')
    (hwrites : ∀ n statements, env.faults n (.executeWrite statements) = false) :
    s'.graphMemory =
      if settings.neo4jEnabled then s.graphMemory.project command else s.graphMemory := by
  have hsound := hp.personsSound h.closed h.persons
  have hold : s.graphMemory = s.graph.named s'.db.personName :=
    h.graph.named_congr fun id hid => (h.personName_eq hp hid).symm
  rw [hold, World.graphMemory, hp.graph_eq hwrites]
  split_ifs
  · have hnodup := World.nodup_participantIds settings command now h.closed h.persons
    exact (Graph.grows_executeWrite command hnodup s.graph).named (Db.personName_injective hsound)
      hnodup (fun entry hentry => h.personName_participant hp hentry)
      (s.draft.mem_participantsOf settings now command)
  · rfl

/-- What was drawn before is drawn afterwards. -/
theorem project (h : Coherent s) (hp : Projects env settings command now s s') : Coherent s' := by
  have hdb : s.draft.db = s.db := World.tables_of_closed h.closed
  have hchats : s.draft.db.ChatsSound s.draft.drawn := hdb ▸ h.chats
  have hchats' : s'.db.ChatsSound s'.drawn := by
    rw [hp.db, hp.drawn]
    exact hchats.project settings now command
  have hle : s.drawn ≤ s'.drawn := hp.lt_drawn.le
  have hchat : s.db.chatId command.tgChatId s.drawn < s'.drawn := by
    have hself : s'.db.HasChat command.tgChatId (s.db.chatId command.tgChatId s.drawn) := by
      rw [hp.db, ← hdb]
      exact s.draft.hasChat_project_self settings now command
    exact hchats'.lt hself
  have hids : ∀ id ∈ (s.draft.participantsOf settings now command).map (·.2), id < s'.drawn :=
    fun id hid => hp.participant_lt h.closed h.persons hid
  refine ⟨hp.closed, hp.personsSound h.closed h.persons, hchats', fun member hmember => ?_, ?_, ?_⟩
  · rw [hp.db, Draft.mem_project_chatMembership, hdb] at hmember
    rcases hmember with hold | ⟨entry, hentry, rfl⟩
    · exact ⟨(h.members member hold).1.trans_le hle, (h.members member hold).2.trans_le hle⟩
    · exact ⟨hchat, hids _ (List.mem_map_of_mem hentry)⟩
  · rw [hp.analysisWindow h.closed]
    exact Table.forall_upsert (fun row hold => (h.windows row hold).trans_le hle)
      (fun _ _ _ hchat => hchat) hchat
  · rcases hp.graph with ⟨hgraph, -⟩ | ⟨hgraph, -⟩
    · rw [hgraph]
      have hnodup := World.nodup_participantIds settings command now h.closed h.persons
      exact (h.graph.mono hle).grows (Graph.grows_executeWrite command hnodup s.graph) hids
    · rw [hgraph]
      exact h.graph.mono hle

end Coherent

/-! ## Runs -/

omit [CharData] in
theorem Coherent.passOver (h : Coherent s) (hp : PassesOver s s') (hdrawn : s.drawn ≤ s'.drawn) :
    Coherent s' := by
  obtain ⟨-, hpersons, hchats, hmembers, hwindows, hgraph⟩ := h
  rw [← hp.db] at hpersons hchats hmembers hwindows
  rw [← hp.graph] at hgraph
  exact ⟨hp.closed, hpersons.mono hdrawn, ⟨hchats.tgChatIds, hchats.ids.mono hdrawn⟩,
    fun m hm => ⟨(hmembers m hm).1.trans_le hdrawn, (hmembers m hm).2.trans_le hdrawn⟩,
    fun row hrow => (hwindows row hrow).trans_le hdrawn, hgraph.mono hdrawn⟩

/-- **What a run accumulates** is what its committed commands accumulate one after the
other. -/
theorem Coherent.deliverAll (h : Coherent s) (deliveries : List (StreamEntry × Timestamp)) :
    (env.deliverAll settings s deliveries).tableMemory =
        (env.committed settings s deliveries).foldl (·.project settings) s.tableMemory ∧
      ((∀ n statements, env.faults n (.executeWrite statements) = false) →
        (env.deliverAll settings s deliveries).graphMemory = if settings.neo4jEnabled then
          (env.committed settings s deliveries).foldl (fun g command => g.project command)
            s.graphMemory else s.graphMemory) := by
  refine (@Env.committed_invariant _ env settings s (fun commands s' => Coherent s' ∧
    s'.tableMemory = commands.foldl (·.project settings) s.tableMemory ∧
    ((∀ n statements, env.faults n (.executeWrite statements) = false) →
      s'.graphMemory = if settings.neo4jEnabled then
        commands.foldl (fun g command => g.project command) s.graphMemory else s.graphMemory))
    (fun _ _ hs' => hs'.1.closed) ?_ ?_ deliveries [] ⟨h, rfl, fun _ => ?_⟩).2
  · rintro commands s₁ s₂ command now ⟨hs₁, htables, hgraph⟩ hp
    refine ⟨hs₁.project hp, ?_, fun hwrites => ?_⟩
    · rw [hs₁.tableMemory_project hp, htables, List.foldl_append]
      rfl
    · rw [hs₁.graphMemory_project hp hwrites, hgraph hwrites, List.foldl_append]
      split_ifs <;> rfl
  · rintro commands s₁ s₂ ⟨hs₁, htables, hgraph⟩ hp hdrawn
    refine ⟨hs₁.passOver hp hdrawn, ?_, fun hwrites => ?_⟩
    · rw [← htables]
      unfold World.tableMemory
      rw [hp.db]
    · rw [← hgraph hwrites]
      unfold World.graphMemory
      rw [hp.graph, hp.db]
  · split_ifs <;> rfl

end Delivery

/-- **The order of projections does not matter** for what they accumulate: two runs from
the same stores, under any clocks and failures, that commit the same commands in some
order. -/
theorem accumulated_perm [CharData] (env env' : Env) (settings : Settings) {s : World}
    (hs : Coherent s) (deliveries deliveries' : List (StreamEntry × Timestamp))
    (hperm : (env.committed settings s deliveries).Perm (env'.committed settings s deliveries'))
    (hwindows : ((env.committed settings s deliveries).map (·.sourceWindowId)).Nodup) :
    (env.deliverAll settings s deliveries).tableMemory =
        (env'.deliverAll settings s deliveries').tableMemory ∧
      ((∀ n statements, env.faults n (.executeWrite statements) = false) →
        (∀ n statements, env'.faults n (.executeWrite statements) = false) →
        (env.deliverAll settings s deliveries).graphMemory =
          (env'.deliverAll settings s deliveries').graphMemory) := by
  obtain ⟨htables, hgraph⟩ := @Coherent.deliverAll _ env settings s hs deliveries
  obtain ⟨htables', hgraph'⟩ := @Coherent.deliverAll _ env' settings s hs deliveries'
  refine ⟨?_, fun hwrites hwrites' => ?_⟩
  · rw [htables, htables']
    exact TableMemory.foldl_project_perm settings hperm hwindows _
  · rw [hgraph hwrites, hgraph' hwrites', GraphMemory.foldl_project_perm hperm]

/-- The stores before the first delivery. -/
theorem coherent_start (mentions : List Mention) (annotations : List RelationshipAnnotation)
    (owners : List OwnerProfile) : Coherent (World.start mentions annotations owners) where
  closed := rfl
  persons := ⟨Drawn.empty, fun _ _ _ ⟨_, h, _⟩ => by cases h⟩
  chats := ⟨List.nodup_nil, Drawn.empty⟩
  members _ h := by cases h
  windows _ h := by cases h
  graph := by
    constructor
    · exact fun _ h => absurd h List.not_mem_nil
    · exact fun _ h => absurd h List.not_mem_nil
    · exact fun _ h => absurd h List.not_mem_nil
    · exact fun _ h => absurd rfl h

/-- A window of another chat, with the sender of the greeting and a friend. -/
def farewell : StreamEntry where
  id := 2
  command :=
    { commandId := 102
      sourceWindowId := 202
      sourceEventId := 302
      tgChatId := 8
      messages := [{ tgMessageId := 1, tgSenderId := some 11, text := "пока", occurredAt := 61 },
        { tgMessageId := 2, tgSenderId := some 12, text := "до встречи", occurredAt := 62 }]
      features := {}
      result := { sourceWindowId := 202, topics := ["встреча"], summary := "прощание" } }

theorem accumulated_perm_farewell :
    let _ := basicCharData
    let settings : Settings := { neo4jEnabled := true }
    let s := Env.deliverAll {} settings (World.start [] [] []) [(greeting, 63), (farewell, 64)]
    let s' := Env.deliverAll {} settings (World.start [] [] []) [(farewell, 65), (greeting, 66)]
    s.tableMemory = s'.tableMemory ∧ s.graphMemory = s'.graphMemory := by
  let _ := basicCharData
  have hcommitted : Env.committed {} { neo4jEnabled := true } (World.start [] [] [])
      [(greeting, 63), (farewell, 64)] = [greeting.command, farewell.command] := by
    decide +kernel
  have hcommitted' : Env.committed {} { neo4jEnabled := true } (World.start [] [] [])
      [(farewell, 65), (greeting, 66)] = [farewell.command, greeting.command] := by
    decide +kernel
  have haccumulated := accumulated_perm {} {} { neo4jEnabled := true } (coherent_start [] [] [])
    [(greeting, 63), (farewell, 64)] [(farewell, 65), (greeting, 66)]
    (by rw [hcommitted, hcommitted']; exact List.Perm.swap _ _ [])
    (by rw [hcommitted]; decide)
  exact ⟨haccumulated.1, haccumulated.2 (fun _ _ => rfl) fun _ _ => rfl⟩

end Memory
end PersonalIntelligence
