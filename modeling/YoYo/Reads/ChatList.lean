import Mathlib.Order.Bounds.Defs
import YoYo.Reads.Answers
import YoYo.Reads.Limits
import YoYo.Reads.Visible

/-!
# The list of conversations

The messages of a user are read in two queries, those he has sent and those he
has received, and what both return is made into rows, one for each profile of
the users he has written to or heard from (`rowsOf`).

Where each of these users, ten at most, has a profile, the list is exact: what
it says of each conversation is what is stored of it (`exact_chatModels`).
-/

namespace YoYo.Reads

open DocStore Reads.DatabaseService Reads.MessagingService

/-! ## Rows -/

/-- What is said of the conversation with a user: how many of his messages have
    not been seen, and the date of the latest message, if there is one. -/
def digest (messages : List Copy) (uid : UID) : Option (ℕ × Date) :=
  ((messages.filter fun message =>
    message.data.senderID = uid ∨ message.data.receiverID = uid).map
      fun message => message.data.date).max?.map fun lastDate =>
        ((messages.filter fun message =>
          message.data.senderID = uid ∧ message.data.messageStatus = .send).length, lastDate)

/-- The rows made of messages of the user `myUID`, given the profiles stored. -/
def rowsOf (myUID : UID) (users : Collection DocID UserDoc) (messages : List Copy) :
    List ChatModel :=
  (((decodeAll UserModel.decode users.docs).filter fun userModel =>
    userModel.data.userID ∈ messages.map (otherUser myUID)).filterMap
      (chatModel messages)).insertionSort fun a b => b.lastMessageDate ≤ a.lastMessageDate

variable {s : Collections} {myUID uid : UID} {messages : List Copy} {p : Profile} {row : ChatModel}

theorem chatModel_eq (messages : List Copy) (p : Profile) :
    chatModel messages p = (digest messages p.data.userID).map fun d => ⟨p, d.1, d.2⟩ := by
  rw [chatModel, digest, Option.map_map]
  rfl

/-- A loop unwrapping what it finds ends with what there is, if there is all of it. -/
theorem mapM_eq_some_iff_filterMap {α β : Type} {f : α → Option β} {l : List α} {l' : List β} :
    l.mapM f = some l' ↔ (∀ a ∈ l, (f a).isSome) ∧ l' = l.filterMap f := by
  rw [mapM_eq_some_iff]
  induction l generalizing l' with
  | nil => cases l' <;> simp
  | cons a l ih =>
    cases ha : f a with
    | none => cases l' <;> simp [ha]
    | some b =>
      rw [List.map_cons, ha, List.filterMap_cons_some ha, List.forall_mem_cons, ha]
      cases l' with
      | nil => simp
      | cons b' l' =>
        rw [List.map_cons, List.cons.injEq, ih, Option.some.injEq, List.cons.injEq]
        exact ⟨fun h => ⟨⟨rfl, h.2.1⟩, h.1.symm, h.2.2⟩, fun h => ⟨h.2.1.symm, h.1.2, h.2.2⟩⟩

/-- The digest of a conversation, if there is a message of it. -/
theorem digest_eq_some_iff {unSeen : ℕ} {lastDate : Date} :
    digest messages uid = some (unSeen, lastDate) ↔
      (messages.filter fun m => m.data.senderID = uid ∧ m.data.messageStatus = .send).length =
        unSeen ∧
      IsGreatest {date | ∃ m ∈ messages, (m.data.senderID = uid ∨ m.data.receiverID = uid) ∧
        m.data.date = date} lastDate := by
  rw [digest, Option.map_eq_some_iff]
  simp only [Prod.mk.injEq, ← and_assoc, exists_eq_right, List.max?_eq_some_iff, List.mem_map,
    List.mem_filter, decide_eq_true_iff]
  rw [and_comm]
  rfl

/-- The messages of a snapshot that all decode. -/
theorem decodeMessages_eq_some_iff {snapshot : List (Doc DocID MessageDoc)} :
    decodeMessages snapshot = some messages ↔
      (∀ d ∈ snapshot, (Message.decode d.data).isSome) ∧
        messages = decodeAll Message.decode snapshot := by
  rw [decodeMessages, decodeAll, mapM_eq_some_iff_filterMap]
  simp only [Option.isSome_map]

/-- The profiles of users that decode are those that decode, of these users. -/
theorem profilesIn_eq_filter (s : Collections) (uids : List UID) :
    profilesIn s uids =
      (decodeAll UserModel.decode s.users.docs).filter fun userModel =>
        userModel.data.userID ∈ uids := by
  rw [profilesIn, Collection.query, decodeAll, decodeAll, List.filterMap_filter,
    List.filter_filterMap]
  refine List.filterMap_congr fun d _ => ?_
  cases hu : UserModel.decode d.data with
  | none => simp
  | some u =>
    have hin : profileIn uids d.data ↔ u.userID ∈ uids := profileIn_iff hu
    by_cases hmem : u.userID ∈ uids <;> simp_all [Option.filter]

/-- The rows of messages, one for each profile of their users: no row is missing. -/
theorem mapM_chatModel_eq (s : Collections) (myUID : UID) (messages : List Copy) :
    (profilesIn s (messages.map (otherUser myUID)).dedup).mapM (chatModel messages) =
      some (((decodeAll UserModel.decode s.users.docs).filter fun userModel =>
        userModel.data.userID ∈ messages.map (otherUser myUID)).filterMap
          (chatModel messages)) := by
  obtain ⟨rows, hrows⟩ := Option.ne_none_iff_exists'.1
    (@mapM_chatModel_ne_none s myUID messages)
  rw [hrows, (mapM_eq_some_iff_filterMap.1 hrows).2, profilesIn_eq_filter]
  simp only [List.mem_dedup]

/-- What the request for conversations delivers, if there are any messages. -/
theorem ending_fetchChatModels_of_decode {sent received : List Copy}
    (hsent : decodeMessages (s.messages.query (sentBy myUID)) = some sent)
    (hreceived : decodeMessages (s.messages.query (sentTo myUID)) = some received)
    (hne : sent ++ received ≠ []) :
    (Request.fetchChatModels myUID).ending (fun _ => none) s =
      .delivered (.fetchChatModels (rowsOf myUID s.users (sent ++ received)) none) := by
  have huids : ((sent ++ received).map (otherUser myUID)).dedup ≠ [] := by
    rwa [Ne, List.dedup_eq_nil, List.map_eq_nil_iff]
  rw [ending_fetchChatModels]
  simp only [hsent, hreceived, if_neg huids, mapM_chatModel_eq]
  rfl

theorem mem_rowsOf {users : Collection DocID UserDoc} :
    row ∈ rowsOf myUID users messages ↔
      row.userModel ∈ decodeAll UserModel.decode users.docs ∧
        row.userModel.data.userID ∈ messages.map (otherUser myUID) ∧
        digest messages row.userModel.data.userID =
          some (row.unSeenMessages, row.lastMessageDate) := by
  rw [rowsOf, List.mem_insertionSort, List.mem_filterMap]
  simp only [List.mem_filter, chatModel_eq, Option.map_eq_some_iff, decide_eq_true_iff]
  constructor
  · rintro ⟨p, ⟨hp, huid⟩, d, hd, rfl⟩
    exact ⟨hp, huid, hd⟩
  · rintro ⟨hp, huid, hd⟩
    exact ⟨row.userModel, ⟨hp, huid⟩, _, hd, rfl⟩

/-- The rows are sorted, the latest conversation first. -/
theorem sorted_rowsOf (myUID : UID) (users : Collection DocID UserDoc) (messages : List Copy) :
    (rowsOf myUID users messages).Pairwise fun a b => b.lastMessageDate ≤ a.lastMessageDate :=
  have : Std.Total fun a b : ChatModel => b.lastMessageDate ≤ a.lastMessageDate :=
    ⟨fun a b => le_total b.lastMessageDate a.lastMessageDate⟩
  have : IsTrans ChatModel fun a b => b.lastMessageDate ≤ a.lastMessageDate :=
    ⟨fun _ _ _ hab hbc => hbc.trans hab⟩
  List.pairwise_insertionSort _ _

/-! ## What is stored -/

/-- The message was sent or received by the user. -/
def ofMine (myUID : UID) (d : MessageDoc) : Bool := sentBy myUID d || sentTo myUID d

/-- The messages stored that a user has sent or received. -/
def storedMessages (s : Collections) (myUID : UID) : List Copy :=
  decodeAll Message.decode (s.messages.query (ofMine myUID))

/-- The message is one between the two users, in either direction. -/
def Between (x y : UID) (m : Copy) : Prop :=
  (m.data.senderID = x ∧ m.data.receiverID = y) ∨ (m.data.senderID = y ∧ m.data.receiverID = x)

instance (x y : UID) (m : Copy) : Decidable (Between x y m) := inferInstanceAs (Decidable (_ ∨ _))

/-- The users somebody has written to or heard from. -/
def correspondents (s : Collections) (myUID : UID) : Finset UID :=
  ((storedMessages s myUID).map (otherUser myUID)).toFinset

/-- What a row says of a conversation is what is stored of it. -/
structure ChatModel.Exact (s : Collections) (myUID : UID) (row : ChatModel) : Prop where
  profile : ∃ d, s.users.query (fun d => d.userID.is row.userModel.data.userID) = [d] ∧
    d.id = row.userModel.id ∧ UserModel.decode d.data = some row.userModel.data
  unSeenMessages : row.unSeenMessages =
    ((storedMessages s myUID).filter fun m => m.data.senderID = row.userModel.data.userID ∧
      m.data.receiverID = myUID ∧ m.data.messageStatus = .send).length
  lastMessageDate : IsGreatest
    {date | ∃ m ∈ storedMessages s myUID, Between myUID row.userModel.data.userID m ∧
      m.data.date = date} row.lastMessageDate

/-- What satisfies one of two predicates that exclude each other satisfies either. -/
theorem filter_append_filter_perm {α : Type} {p q : α → Bool} {l : List α}
    (h : ∀ a ∈ l, p a → q a = false) :
    (l.filter p ++ l.filter q).Perm (l.filter fun a => p a || q a) := by
  induction l with
  | nil => exact .refl _
  | cons a l ih =>
    have hl := ih fun b hb => h b (List.mem_cons_of_mem _ hb)
    cases hp : p a with
    | true =>
      have hq := h a List.mem_cons_self hp
      simpa [List.filter_cons, hp, hq] using hl
    | false =>
      cases hq : q a with
      | true => simpa [List.filter_cons, hp, hq] using List.perm_middle.trans (hl.cons a)
      | false => simpa [List.filter_cons, hp, hq] using hl

/-- Those a user has sent and those he has received are all of his messages, if
    he has sent none to himself. -/
theorem perm_storedMessages
    (hdecode : ∀ d ∈ s.messages.query (ofMine myUID), (Message.decode d.data).isSome)
    (hself : ∀ m ∈ storedMessages s myUID, ¬ Between myUID myUID m) :
    (decodeAll Message.decode (s.messages.query (sentBy myUID)) ++
      decodeAll Message.decode (s.messages.query (sentTo myUID))).Perm
        (storedMessages s myUID) := by
  have hdocs : ∀ d ∈ s.messages.docs, sentBy myUID d.data → sentTo myUID d.data = false := by
    intro d hd hby
    refine Bool.eq_false_iff.2 fun hto => ?_
    have hmine : d ∈ s.messages.query (ofMine myUID) :=
      Collection.mem_query.2 ⟨hd, by simp [ofMine, hby]⟩
    obtain ⟨m, hm⟩ := Option.isSome_iff_exists.1 (hdecode d hmine)
    obtain ⟨hsender, hreceiver⟩ := Message.users_of_decode hm
    rw [sentBy, DocField.is_iff, hsender, DocField.value.injEq] at hby
    rw [sentTo, DocField.is_iff, hreceiver, DocField.value.injEq] at hto
    exact hself ⟨d.id, m⟩ (mem_decodeAll.2 ⟨d, hmine, rfl, hm⟩) (.inl ⟨hby, hto⟩)
  have hperm := (filter_append_filter_perm hdocs).filterMap fun d =>
    (Message.decode d.data).map (Doc.mk d.id)
  rwa [List.filterMap_append] at hperm

theorem mem_storedMessages {m : Copy} (hm : m ∈ storedMessages s myUID) :
    m.data.senderID = myUID ∨ m.data.receiverID = myUID := by
  obtain ⟨d, hd, -, hdecode⟩ := mem_decodeAll.1 hm
  obtain ⟨hsender, hreceiver⟩ := Message.users_of_decode hdecode
  have hmine := (Collection.mem_query.1 hd).2
  rwa [ofMine, Bool.or_eq_true, sentBy, sentTo, DocField.is_iff, DocField.is_iff, hsender,
    hreceiver, DocField.value.injEq, DocField.value.injEq] at hmine

/-- The other user of a message is the one it is between. -/
theorem otherUser_eq_iff {m : Copy} (hm : m.data.senderID = myUID ∨ m.data.receiverID = myUID) :
    otherUser myUID m = uid ↔ Between myUID uid m := by
  rw [otherUser, Between]
  by_cases hsender : m.data.senderID = myUID
  · rw [if_neg (not_not_intro hsender.symm), hsender]
    constructor
    · rintro rfl
      exact .inl ⟨rfl, rfl⟩
    · rintro (⟨-, h⟩ | ⟨rfl, h⟩)
      · exact h
      · exact h
  · rw [if_pos (Ne.symm hsender)]
    constructor
    · rintro rfl
      exact .inr ⟨rfl, hm.resolve_left hsender⟩
    · rintro (⟨h, -⟩ | ⟨h, -⟩)
      · exact absurd h hsender
      · exact h

theorem mem_correspondents :
    uid ∈ correspondents s myUID ↔ ∃ m ∈ storedMessages s myUID, Between myUID uid m := by
  rw [correspondents, List.mem_toFinset, List.mem_map]
  exact exists_congr fun m => and_congr_right fun hm => otherUser_eq_iff (mem_storedMessages hm)

/-- Two users one of whom has sent the message, or received it, are the two of it. -/
theorem between_iff {m : Copy} (hm : m.data.senderID = myUID ∨ m.data.receiverID = myUID)
    (huid : uid ≠ myUID) :
    Between myUID uid m ↔ m.data.senderID = uid ∨ m.data.receiverID = uid := by
  constructor
  · rintro (⟨-, h⟩ | ⟨h, -⟩)
    · exact .inr h
    · exact .inl h
  · rintro (h | h)
    · exact .inr ⟨h, hm.resolve_left fun h' => huid (h ▸ h')⟩
    · exact .inl ⟨hm.resolve_right fun h' => huid (h ▸ h'), h⟩

/-- What is said of a conversation with somebody else is what is stored of it. -/
theorem of_digest (hperm : messages.Perm (storedMessages s myUID)) (huid : uid ≠ myUID)
    {unSeen : ℕ} {lastDate : Date} (h : digest messages uid = some (unSeen, lastDate)) :
    unSeen = ((storedMessages s myUID).filter fun m => m.data.senderID = uid ∧
        m.data.receiverID = myUID ∧ m.data.messageStatus = .send).length ∧
      IsGreatest {date | ∃ m ∈ storedMessages s myUID, Between myUID uid m ∧ m.data.date = date}
        lastDate := by
  obtain ⟨hlen, hgreatest⟩ := digest_eq_some_iff.1 h
  constructor
  · rw [← hlen, (hperm.filter _).length_eq]
    congr 1
    refine List.filter_congr fun m hm => decide_eq_decide.2 (and_congr_right fun hsender => ?_)
    -- What he has sent, he has sent to the user.
    have hreceiver : m.data.receiverID = myUID :=
      (mem_storedMessages hm).resolve_left fun h => huid (hsender ▸ h)
    exact (and_iff_right hreceiver).symm
  · convert hgreatest using 1
    ext date
    refine exists_congr fun m => ?_
    rw [hperm.mem_iff]
    exact and_congr_right fun hm =>
      and_congr_left fun _ => between_iff (mem_storedMessages hm) huid

/-- A user has only one profile: the one that is found. -/
theorem OneProfile.query_eq {p : Profile} (h : OneProfile s p.data.userID)
    (hp : p ∈ decodeAll UserModel.decode s.users.docs) :
    ∃ d, s.users.query (fun d => d.userID.is p.data.userID) = [d] ∧
      d.id = p.id ∧ UserModel.decode d.data = some p.data := by
  obtain ⟨d, hquery, -⟩ := h
  obtain ⟨d', hd', hid, hdecode⟩ := mem_decodeAll.1 hp
  have hmem : d' ∈ s.users.query fun d => d.userID.is p.data.userID :=
    Collection.mem_query.2 ⟨hd', DocField.is_iff.2 (UserModel.userID_of_decode hdecode)⟩
  rw [hquery, List.mem_singleton] at hmem
  subst hmem
  exact ⟨d', hquery, hid, hdecode⟩

theorem OneProfile.eq_of_mem {p' : Profile} (h : OneProfile s p.data.userID)
    (hp : p ∈ decodeAll UserModel.decode s.users.docs)
    (hp' : p' ∈ decodeAll UserModel.decode s.users.docs)
    (huid : p'.data.userID = p.data.userID) : p' = p := by
  obtain ⟨d, hquery, hid, hdecode⟩ := h.query_eq hp
  obtain ⟨d', hquery', hid', hdecode'⟩ := OneProfile.query_eq (huid ▸ h) hp'
  rw [huid, hquery, List.cons.injEq] at hquery'
  obtain ⟨rfl, -⟩ := hquery'
  calc p' = ⟨p'.id, p'.data⟩ := rfl
    _ = ⟨p.id, p.data⟩ := by
      rw [hid'.symm.trans hid, Option.some.inj (hdecode'.symm.trans hdecode)]

/-- A user with a profile has one that decodes. -/
theorem HasProfile.exists_mem (h : HasProfile s uid) :
    ∃ p ∈ decodeAll UserModel.decode s.users.docs, p.data.userID = uid := by
  obtain ⟨d, hd, u, hu, huid⟩ := h
  exact ⟨⟨d.id, u⟩, mem_decodeAll.2 ⟨d, hd, rfl, hu⟩, huid⟩

/-! ## Exactness -/

/-- No two rows are of the same user, if each has one profile. -/
theorem nodup_rowsOf
    (hone : ∀ uid ∈ messages.map (otherUser myUID), OneProfile s uid) :
    ((rowsOf myUID s.users messages).map fun row => row.userModel.data.userID).Nodup := by
  have hperm := List.perm_insertionSort
    (fun a b : ChatModel => b.lastMessageDate ≤ a.lastMessageDate)
    (((decodeAll UserModel.decode s.users.docs).filter fun userModel =>
      userModel.data.userID ∈ messages.map (otherUser myUID)).filterMap (chatModel messages))
  rw [rowsOf, (hperm.map _).nodup_iff, List.Nodup, List.pairwise_map, List.pairwise_filterMap]
  -- Different profiles found are of different users.
  have hids : ((decodeAll UserModel.decode s.users.docs).filter fun userModel =>
      userModel.data.userID ∈ messages.map (otherUser myUID)).Nodup := by
    refine List.Nodup.filter _ (List.pairwise_filterMap.2 (s.users.sorted.imp ?_))
    intro d e hlt p hp p' hp'
    obtain ⟨-, -, rfl⟩ := Option.map_eq_some_iff.1 hp
    obtain ⟨-, -, rfl⟩ := Option.map_eq_some_iff.1 hp'
    exact fun heq => hlt.ne (Doc.mk.inj heq).1
  refine List.Pairwise.imp_of_mem (fun {p p'} hp hp' hne row hrow row' hrow' huid => hne ?_) hids
  rw [chatModel_eq] at hrow hrow'
  obtain ⟨d, -, rfl⟩ := Option.map_eq_some_iff.1 hrow
  obtain ⟨d', -, rfl⟩ := Option.map_eq_some_iff.1 hrow'
  obtain ⟨hp, hin⟩ := List.mem_filter.1 hp
  exact ((hone _ (of_decide_eq_true hin)).eq_of_mem hp (List.mem_filter.1 hp').1 huid.symm).symm

/-- Whatever is read of the messages of a user is read, if all of these decode. -/
theorem decodeMessages_query
    (hdecode : ∀ d ∈ s.messages.query (ofMine myUID), (Message.decode d.data).isSome)
    {q : MessageDoc → Bool} (hq : ∀ d, q d → ofMine myUID d) :
    decodeMessages (s.messages.query q) =
      some (decodeAll Message.decode (s.messages.query q)) := by
  refine decodeMessages_eq_some_iff.2 ⟨fun d hd => hdecode d ?_, rfl⟩
  obtain ⟨hmem, hdq⟩ := Collection.mem_query.1 hd
  exact Collection.mem_query.2 ⟨hmem, hq d.data hdq⟩

/-- Whoever there is a message of has a row, if he has a profile. -/
theorem mem_map_rowsOf (hprofile : HasProfile s uid)
    (huid : uid ∈ messages.map (otherUser myUID)) :
    uid ∈ (rowsOf myUID s.users messages).map fun row => row.userModel.data.userID := by
  obtain ⟨p, hp, rfl⟩ := hprofile.exists_mem
  obtain ⟨row, hrow⟩ := Option.ne_none_iff_exists'.1 (chatModel_ne_none huid)
  rw [chatModel_eq] at hrow
  obtain ⟨d, hd, rfl⟩ := Option.map_eq_some_iff.1 hrow
  exact List.mem_map.2 ⟨⟨p, d.1, d.2⟩, mem_rowsOf.2 ⟨hp, huid, hd⟩, rfl⟩

/-- **The list of conversations is exact**, for a user with up to ten users he has
    written to or heard from, each with one profile: it has one row for each of
    them, saying what is stored of the conversation, the latest first. -/
theorem exact_chatModels
    (hdecode : ∀ d ∈ s.messages.query (ofMine myUID), (Message.decode d.data).isSome)
    (hself : ∀ m ∈ storedMessages s myUID, ¬ Between myUID myUID m)
    (hone : 1 ≤ (correspondents s myUID).card) (hten : (correspondents s myUID).card ≤ 10)
    (hprofiles : ∀ uid ∈ correspondents s myUID, OneProfile s uid) :
    (Request.fetchChatModels myUID).Accepted (fun _ => none) s ∧
    ∃ chatModels, (Request.fetchChatModels myUID).ending (fun _ => none) s =
        .delivered (.fetchChatModels chatModels none) ∧
      (chatModels.map fun row => row.userModel.data.userID).Nodup ∧
      (∀ uid, uid ∈ chatModels.map (fun row => row.userModel.data.userID) ↔
        uid ∈ correspondents s myUID) ∧
      (∀ row ∈ chatModels, row.Exact s myUID) ∧
      chatModels.Pairwise fun a b => b.lastMessageDate ≤ a.lastMessageDate := by
  have hsent := decodeMessages_query hdecode (q := sentBy myUID) fun d hd => by simp [ofMine, hd]
  have hreceived := decodeMessages_query hdecode (q := sentTo myUID) fun d hd => by
    simp [ofMine, hd]
  have hperm := perm_storedMessages hdecode hself
  generalize decodeAll Message.decode (s.messages.query (sentBy myUID)) = sent at *
  generalize decodeAll Message.decode (s.messages.query (sentTo myUID)) = received at *
  -- The users of both lists are those of all messages of the user.
  have husers : ∀ uid, uid ∈ (sent ++ received).map (otherUser myUID) ↔
      uid ∈ correspondents s myUID := fun uid => by
    rw [(hperm.map _).mem_iff, correspondents, List.mem_toFinset]
  have hne : sent ++ received ≠ [] := by
    rintro hnil
    obtain ⟨uid, huid⟩ := Finset.card_pos.1 hone
    rw [← husers, hnil] at huid
    exact List.not_mem_nil huid
  refine ⟨?_, rowsOf myUID s.users (sent ++ received),
    ending_fetchChatModels_of_decode hsent hreceived hne, ?_, fun uid => ?_, fun row hrow => ?_,
    sorted_rowsOf _ _ _⟩
  · rw [accepted_fetchChatModels]
    rintro - - sent' received' hsent' hreceived'
    obtain rfl := Option.some.inj (hsent.symm.trans hsent')
    obtain rfl := Option.some.inj (hreceived.symm.trans hreceived')
    rwa [List.toFinset_eq_of_perm _ _ (hperm.map _)]
  · exact nodup_rowsOf fun uid huid => hprofiles uid ((husers uid).1 huid)
  · constructor
    · intro hrow
      obtain ⟨row, hmem, rfl⟩ := List.mem_map.1 hrow
      exact (husers _).1 (mem_rowsOf.1 hmem).2.1
    · intro hcorr
      exact mem_map_rowsOf (hprofiles uid hcorr).hasProfile ((husers uid).2 hcorr)
  · obtain ⟨hp, huid, hd⟩ := mem_rowsOf.1 hrow
    have hcorr := (husers _).1 huid
    obtain ⟨m, hm, hbetween⟩ := mem_correspondents.1 hcorr
    have hother : row.userModel.data.userID ≠ myUID := fun h => hself m hm (h ▸ hbetween)
    obtain ⟨hunseen, hlast⟩ := of_digest hperm hother hd
    exact ⟨(hprofiles _ hcorr).query_eq hp, hunseen, hlast⟩

/-- Ann has written to Bob, and he has answered twice; Cem has written to her. -/
def annsMessages : Collections where
  friends := .empty
  users := (Collection.empty.setData 1
    (UserModel.encode ⟨"Bob", 0, "bob.jpg", "bob", "bob@yoyo"⟩)).setData 2
      (UserModel.encode ⟨"Cem", 0, "cem.jpg", "cem", "cem@yoyo"⟩)
  stories := .empty
  messages := (((Collection.empty.setData 1
    (Message.encode ⟨"ann", "bob", 5, .plain, .seen, some "hello", none, none⟩)).setData 2
      (Message.encode ⟨"bob", "ann", 6, .plain, .seen, some "hi", none, none⟩)).setData 3
        (Message.encode ⟨"bob", "ann", 8, .plain, .send, some "there?", none, none⟩)).setData 4
          (Message.encode ⟨"cem", "ann", 7, .plain, .send, some "hey", none, none⟩)

/-- Her list has the rows of Bob and Cem. -/
theorem exact_annsMessages : ∃ chatModels,
    (Request.fetchChatModels "ann").ending (fun _ => none) annsMessages =
      .delivered (.fetchChatModels chatModels none) ∧
    ∀ uid, uid ∈ chatModels.map (fun row => row.userModel.data.userID) ↔
      uid ∈ ({"bob", "cem"} : Finset UID) := by
  have hcorr : correspondents annsMessages "ann" = {"bob", "cem"} := by decide
  have hprofiles : ∀ uid ∈ correspondents annsMessages "ann", OneProfile annsMessages uid := by
    intro uid huid
    rw [hcorr, Finset.mem_insert, Finset.mem_singleton] at huid
    obtain rfl | rfl := huid
    · exact ⟨_, rfl, rfl⟩
    · exact ⟨_, rfl, rfl⟩
  obtain ⟨-, chatModels, hending, -, hmem, -⟩ := @exact_chatModels annsMessages "ann"
    (by decide) (by decide) (by decide) (by decide) hprofiles
  exact ⟨chatModels, hending, fun uid => hcorr ▸ hmem uid⟩

end YoYo.Reads
