import YoYo.Messages.Receipts
import YoYo.Uploads.Cloud

/-!
# What is stored has been confirmed

Whoever posts something is told how it ended: an alert says whether a story, a
picture or a video has been saved, and a text is not spoken of unless it has
failed. What has been confirmed to him is on its way to the store then, and the
store may still reject it, which is the only way for it to get lost: whatever is
posted, in whatever order calls are answered, and whichever fail, what has been
confirmed is exactly what is stored, what is on its way, and what the store has
rejected, each once (`stored_confirmed`), and playing, reading and marking stories
and messages makes no difference to that.
-/

namespace YoYo.Uploads

open DocStore Storage Accounts

/-! ## What is saved -/

/-- What a document says of who has posted what: all of it but the URLs, and what
    others add to it. -/
inductive Saved
  | story (uid : UID) (title : String) (expiryDate : Date) (mediaType : MediaType)
  | message (senderID receiverID : UID) (date : Date) (messageType : MessageType)
    (message : Option String)
  deriving DecidableEq, Repr

namespace Saved

/-- What a story says of it. -/
def ofStory (story : Story) : Saved :=
  .story story.uid story.title story.expiryDate story.mediaType

/-- What a message says of it. -/
def ofMessage (m : Message) : Saved :=
  .message m.senderID m.receiverID m.date m.messageType m.message

@[simp] theorem ofMessage_seen (m : Message) : ofMessage m.seen = ofMessage m := rfl

end Saved

/-- What a document on its way says. -/
def Write.saved : Write → Saved
  | .story s => .ofStory s
  | .message m => .ofMessage m

/-- What a call saves, given its answer. -/
def saved {D : Type} : (c : UploadCall D) → UploadAnswer c → Option Saved
  | .saveStory story, none => some (.ofStory story)
  | .saveMessage message, none => some (.ofMessage message)
  | .saveStory _, some _ | .saveMessage _, some _ => none
  | .putData _, _ | .downloadURL _, _ | .copyCGImage _, _ => none

variable {D : Type} {isURL : String → Bool} {same : String → String → Bool}
  {reference : String → List Char} {uids : AutoId UID} {ids : AutoId DocID} {m : Message}

/-- What a user who has posted something takes to be saved, given how it ended. -/
def Post.confirmed : Post D → SendEnding → Option Saved
  | .uploadTapped uid expiryDate (some uploadAsset) (some title), .presentAlert true _ =>
    some (.story uid title expiryDate uploadAsset.mediaType)
  | .onSendButtonTapped myUID now (some uploadAsset) (some userModel) title,
      .presentAlert true _ =>
    some (.message myUID userModel.userID now
      (if uploadAsset.mediaType = .image then .image else .video) (some title))
  | .sendButtonTapped myUID now (some userModel) messageTxt, .silent =>
    if messageTxt.length > 0 then
      some (.message myUID userModel.userID now .plain (some messageTxt))
    else none
  | _, _ => none

/-- So far. -/
def Posting.confirmed (posting : Posting D) : Option Saved :=
  posting.prog.result.bind posting.post.confirmed

/-! ## What programs tell -/

/-- An upload alone saves nothing. -/
theorem tells_upload (put : PutData D) :
    (StorageService.upload put).Tells saved fun _ => none := by
  intro error
  cases error with
  | some error => exact ⟨rfl, trivial⟩
  | none => exact ⟨rfl, fun url => ⟨rfl, trivial⟩⟩

theorem tells_saveMessage (m : Message) :
    (DatabaseService.saveMessage (D := D) m).Tells saved fun answer =>
      if answer.1 then some (.ofMessage m) else none := by
  intro error
  cases error <;> exact ⟨rfl, trivial⟩

theorem tells_saveStory (story : Story) :
    (DatabaseService.saveStory (D := D) story).Tells saved fun answer =>
      if answer.1 then some (.ofStory story) else none := by
  intro error
  cases error <;> exact ⟨rfl, trivial⟩

theorem tells_uploadStory (uid : UID) (expiryDate : Date) (uploadAsset : UploadAsset D)
    (title : String) :
    (StoryService.uploadStory uid expiryDate uploadAsset title).Tells saved fun answer =>
      if answer.1 then some (.story uid title expiryDate uploadAsset.mediaType) else none := by
  refine (tells_upload _).bind fun answer => ?_
  rcases answer with error | _ | url
  · exact ⟨rfl, trivial⟩
  · exact ⟨rfl, trivial⟩
  · exact ⟨rfl, (tells_saveStory _).map fun _ => rfl⟩

/-- What the calls of the screen sending media save. -/
def sendSaved : (c : SendCall D) → SendAnswer c → Option Saved
  | .saveMessage message, success => if success then some (.ofMessage message) else none
  | .uploadMedia _ _ _ _, _ | .copyCGImage _, _ => none

theorem tells_perform (c : SendCall D) :
    (MessagingService.perform c).Tells saved (sendSaved c) := by
  cases c with
  | uploadMedia data mediaType fileName userID => exact tells_upload _
  | copyCGImage url => exact fun _ => ⟨rfl, trivial⟩
  | saveMessage message => exact (tells_saveMessage message).map fun _ => rfl

theorem result_perform (c : SendCall D) : (MessagingService.perform c).result = none := by
  cases c <;> rfl

/-- The alert of the screen sending media is about the message of the post. -/
theorem tells_onSendButtonTapped (myUID : UID) (now : Date)
    (uploadAsset : Option (UploadAsset D)) (userModel : Option UserModel) (title : String) :
    (YoYo.SendMediaMessageViewController.onSendButtonTapped isURL myUID now uploadAsset userModel
      title).Tells sendSaved
        (Post.onSendButtonTapped myUID now uploadAsset userModel title).confirmed := by
  cases uploadAsset with
  | none => trivial
  | some uploadAsset =>
    cases userModel with
    | none => trivial
    | some userModel =>
      obtain ⟨data, mediaType⟩ := uploadAsset
      -- The message saved, if one is, is the one the alert is about.
      have hsend : ∀ m : Message, Saved.ofMessage m = .message myUID userModel.userID now
          (if mediaType = .image then .image else .video) (some title) →
          (YoYo.SendMediaMessageViewController.sendMessageUsing (D := D) m).Tells sendSaved
            (Post.onSendButtonTapped myUID now (some ⟨data, mediaType⟩) (some userModel)
              title).confirmed := by
        intro m hm success
        cases success with
        | false => exact ⟨rfl, trivial⟩
        | true => exact ⟨congrArg some hm.symm, trivial⟩
      rw [YoYo.SendMediaMessageViewController.onSendButtonTapped]
      by_cases hlen : title.length > 0
      · rw [if_pos hlen]
        intro answer
        rcases answer with error | _ | url
        · exact ⟨rfl, trivial⟩
        · exact ⟨rfl, trivial⟩
        · cases mediaType with
          | image => exact ⟨rfl, hsend _ rfl⟩
          | video =>
            simp only [reduceCtorEq, if_false]
            by_cases hisURL : isURL url = true
            · rw [if_pos hisURL]
              refine ⟨rfl, fun answer => ?_⟩
              rcases answer with error | _ | thumbnailData
              · exact ⟨rfl, trivial⟩
              · exact ⟨rfl, trivial⟩
              · refine ⟨rfl, fun answer => ?_⟩
                rcases answer with error | _ | url'
                · exact ⟨rfl, trivial⟩
                · exact ⟨rfl, trivial⟩
                · exact ⟨rfl, hsend _ rfl⟩
            · rw [if_neg hisURL]
              exact ⟨rfl, trivial⟩
      · rw [if_neg hlen]
        trivial

variable (isURL) in
/-- Whatever is posted tells what it has saved, and nothing before it has done anything. -/
theorem tells_prog (post : Post D) :
    ((post.prog isURL).result.bind post.confirmed = none) ∧
      (post.prog isURL).Tells saved post.confirmed := by
  cases post with
  | uploadTapped uid expiryDate assetData title =>
    cases assetData with
    | none => exact ⟨rfl, trivial⟩
    | some uploadAsset =>
      cases title with
      | none => exact ⟨rfl, trivial⟩
      | some title =>
        rw [Post.prog, UploadImageStoryViewController.uploadTapped]
        split_ifs
        · refine ⟨rfl, (tells_uploadStory uid expiryDate uploadAsset title).map fun answer => ?_⟩
          obtain ⟨_ | _, msg⟩ := answer <;> rfl
        · exact ⟨rfl, trivial⟩
  | onSendButtonTapped myUID now uploadAsset userModel title =>
    refine ⟨?_, (tells_onSendButtonTapped myUID now uploadAsset userModel title).through
      result_perform tells_perform⟩
    rw [Post.prog, SendMediaMessageViewController.onSendButtonTapped,
      Prog.result_through result_perform,
      YoYo.SendMediaMessageViewController.onSendButtonTapped.eq_def]
    split
    · split_ifs <;> rfl
    · rename_i hnone
      simp only [Prog.result, Option.bind_some]
      rcases uploadAsset with _ | uploadAsset
      · rfl
      · rcases userModel with _ | userModel
        · rfl
        · exact absurd rfl (hnone uploadAsset userModel rfl)
  | sendButtonTapped myUID now userModel messageTxt =>
    cases userModel with
    | none => exact ⟨rfl, trivial⟩
    | some userModel =>
      rw [Post.prog, MessageViewController.sendButtonTapped]
      by_cases hlen : messageTxt.length > 0
      · rw [if_pos hlen]
        refine ⟨rfl, (tells_saveMessage _).map fun answer => ?_⟩
        obtain ⟨_ | _, msg⟩ := answer
        · rfl
        · exact if_pos hlen
      · rw [if_neg hlen]
        exact ⟨if_neg hlen, trivial⟩

/-! ## What is stored -/

/-- What the documents of a collection say, of those that decode. -/
def savedIn {α β : Type} (decode : α → Option β) (of : β → Saved) (c : Collection DocID α) :
    List Saved := c.docs.filterMap fun d => (decode d.data).map of

section

variable {α β : Type} {decode : α → Option β} {of : β → Saved} {c : Collection DocID α} {a : α}
  {b b' : β} {id : DocID}

variable (ids of) in
theorem savedIn_addDocument (ha : decode a = some b) :
    (savedIn decode of (c.addDocument ids a)).Perm (of b :: savedIn decode of c) := by
  refine (Collection.docs_addDocument_perm ids a).filterMap _ |>.trans ?_
  rw [List.filterMap_cons, ha]
  exact .refl _

/-- A document that is written back says the same. -/
theorem savedIn_setData (hb : (c.get? id).bind decode = some b) (ha : decode a = some b')
    (hsame : of b' = of b) : savedIn decode of (c.setData id a) = savedIn decode of c := by
  obtain ⟨d, hd, hdecode⟩ := Option.bind_eq_some_iff.1 hb
  refine Collection.filterMap_setData (Collection.get?_eq_some_iff.1 hd) ?_
  simp only [ha, hdecode, Option.map_some, hsame]

end

/-- One of the postings goes on, and confirms something or not. -/
theorem filterMap_set_perm {α β : Type} {f : α → Option β} {l : List α} {i : ℕ} {a : α}
    (hi : l[i]? = some a) (ha : f a = none) (a' : α) :
    ((l.set i a').filterMap f).Perm ((f a').toList ++ l.filterMap f) := by
  obtain ⟨hlt, hget⟩ := List.getElem?_eq_some_iff.1 hi
  have hl : l = l.take i ++ a :: l.drop (i + 1) := by
    rw [← hget, List.getElem_cons_drop, List.take_append_drop]
  rw [List.set_eq_take_append_cons_drop, if_pos hlt]
  conv_rhs => rw [hl]
  rw [List.filterMap_append, List.filterMap_append, List.filterMap_cons, List.filterMap_cons, ha]
  cases f a' with
  | none => exact .refl _
  | some b => exact List.perm_middle

namespace Cloud

variable {st : Cloud D}

/-- What the stories and messages stored say. -/
def stored (st : Cloud D) : List Saved :=
  savedIn Story.decode .ofStory st.stories.now ++
    savedIn Message.decode .ofMessage st.messages.store

/-- What is on its way. -/
def onItsWay (st : Cloud D) : List Saved := st.writes.map Write.saved

/-- What has been confirmed to those who have posted something. -/
def confirmed (st : Cloud D) : List Saved := st.postings.filterMap Posting.confirmed

/-- What the store rejects in a step. -/
def rejected (st : Cloud D) : CloudEvent D → Option Saved
  | .written i false => st.writes[i]?.map Write.saved
  | _ => none

/-- Stories stored once are still there, and say the same. -/
def StoriesStay (h : StoriesHistory) : Prop :=
  ∀ s ∈ h.seen, ∀ id a, storyOf s id = some a →
    ∃ a', storyOf h.now id = some a' ∧ Saved.ofStory a' = .ofStory a

/-- What the runs keep, given what the store has rejected so far. -/
structure Accounted (lost : List Saved) (st : Cloud D) : Prop where
  stored : (st.stored ++ st.onItsWay ++ lost).Perm st.confirmed
  postings : ∀ posting ∈ st.postings, posting.prog.Tells saved posting.post.confirmed
  stories : StoriesStay st.stories
  messages : st.messages.Sane

variable {lost : List Saved}

theorem accounted_init : (init : Cloud D).Accounted [] where
  stored := .refl _
  postings _ hmem := absurd hmem List.not_mem_nil
  stories s hs id a ha := by
    rw [Versions.mem_seen_init.1 hs] at ha
    cases ha
  messages := Messages.sane_init

/-! ## Steps -/

theorem StoriesStay.push {h : StoriesHistory} (hh : StoriesStay h) {s : StoriesStore}
    (hs : ∀ id a, storyOf h.now id = some a →
      ∃ a', storyOf s id = some a' ∧ Saved.ofStory a' = .ofStory a) :
    StoriesStay (h.push s) := by
  intro s' hs' id a ha
  rcases Versions.mem_seen_push.1 hs' with rfl | hs'
  · exact ⟨a, ha, rfl⟩
  · obtain ⟨a', ha', hsame⟩ := hh s' hs' id a ha
    obtain ⟨a'', ha'', hsame'⟩ := hs id a' ha'
    exact ⟨a'', ha'', hsame'.trans hsame⟩

theorem StoriesStay.saveStory {h : StoriesHistory} (hh : StoriesStay h) (story : Story) :
    StoriesStay (h.push (YoYo.DatabaseService.saveStory ids story h.now)) := by
  refine hh.push fun id a ha => ⟨a, ?_, rfl⟩
  rw [storyOf_saveStory, if_neg]
  · exact ha
  · rintro rfl
    rw [storyOf, Collection.get?_next] at ha
    cases ha

/-- It is about the stories, the messages, and what is posted. -/
theorem Accounted.congr {st' : Cloud D} (hI : st.Accounted lost)
    (hstories : st'.stories = st.stories) (hmessages : st'.messages = st.messages)
    (hwrites : st'.writes = st.writes) (hpostings : st'.postings = st.postings) :
    st'.Accounted lost := by
  cases st
  cases st'
  subst hstories hmessages hwrites hpostings
  exact ⟨hI.stored, hI.postings, hI.stories, hI.messages⟩

/-- The next call of a post puts on its way what it tells, and stores nothing. -/
theorem onItsWay_performed (st : Cloud D) (a : (c : UploadCall D) → UploadAnswer c)
    (c : UploadCall D) :
    (st.performed a c).onItsWay = st.onItsWay ++ (saved c (a c)).toList ∧
      (st.performed a c).stories = st.stories ∧ (st.performed a c).messages = st.messages := by
  have hnone : st.onItsWay = st.onItsWay ++ [] := (List.append_nil _).symm
  cases c with
  | putData put =>
    rw [Cloud.performed]
    split_ifs <;> exact ⟨hnone, rfl, rfl⟩
  | downloadURL path => exact ⟨hnone, rfl, rfl⟩
  | copyCGImage url => exact ⟨hnone, rfl, rfl⟩
  | saveStory story =>
    rw [Cloud.performed]
    cases a (.saveStory story) with
    | some error => exact ⟨hnone, rfl, rfl⟩
    | none =>
      rw [if_pos rfl]
      exact ⟨List.map_append, rfl, rfl⟩
  | saveMessage message =>
    rw [Cloud.performed]
    cases a (.saveMessage message) with
    | some error => exact ⟨hnone, rfl, rfl⟩
    | none =>
      rw [if_pos rfl]
      exact ⟨List.map_append, rfl, rfl⟩

theorem Accounted.answered (hI : st.Accounted lost) (i : ℕ)
    (a : (c : UploadCall D) → UploadAnswer c) : (st.answered i a).Accounted lost := by
  rw [Cloud.answered.eq_def]
  split
  · rename_i post c k hposting
    have htells := hI.postings _ (List.mem_of_getElem? hposting)
    obtain ⟨htold, hrest⟩ := htells (a c)
    obtain ⟨honItsWay, hstories, hmessages⟩ := onItsWay_performed st a c
    have hstored : (st.performed a c).stored = st.stored := by
      rw [Cloud.stored, hstories, hmessages, Cloud.stored]
    refine ⟨?_, fun posting hmem => ?_, hstories ▸ hI.stories, hmessages ▸ hI.messages⟩
    · -- What the call has put on its way the program has confirmed, if it has ended.
      have hconfirmed := filterMap_set_perm (f := Posting.confirmed) hposting rfl ⟨post, k (a c)⟩
      change ((st.performed a c).stored ++ (st.performed a c).onItsWay ++ lost).Perm _
      refine .trans ?_ hconfirmed.symm
      rw [hstored, honItsWay, Posting.confirmed, htold]
      refine .trans ?_ (hI.stored.append_left _)
      rw [← List.append_assoc, List.append_assoc _ _ lost]
      refine (List.perm_append_comm_assoc _ _ _).trans ?_
      rw [List.append_assoc]
    · rcases List.mem_or_eq_of_mem_set hmem with hmem | rfl
      · exact hI.postings posting hmem
      · exact hrest
  · exact hI
  · exact hI

variable (ids) in
theorem postings_store (st : Cloud D) (write : Write) :
    (st.store ids write).postings = st.postings := by
  cases write <;> rfl

variable (ids) in
/-- What gets to the store is stored. -/
theorem Accounted.store (hI : st.Accounted lost) (write : Write) :
    (st.store ids write).stored.Perm (write.saved :: st.stored) ∧
      StoriesStay (st.store ids write).stories ∧ (st.store ids write).messages.Sane := by
  cases write with
  | story story =>
    refine ⟨?_, hI.stories.saveStory story, hI.messages⟩
    exact List.Perm.append_right _ (savedIn_addDocument ids _ (Story.decode_encode story))
  | message message =>
    refine ⟨?_, hI.stories, hI.messages.saveMessage ids message⟩
    have hmessages := savedIn_addDocument ids Saved.ofMessage (c := st.messages.store)
      (Message.decode_encode message)
    exact (hmessages.append_left _).trans List.perm_middle

/-- What is on its way gets to the store, or is lost. -/
theorem Accounted.written (hI : st.Accounted lost) (i : ℕ) (accepted : Bool) :
    (st.written ids i accepted).Accounted
      (lost ++ (st.rejected (.written i accepted)).toList) := by
  rw [Cloud.written]
  split
  · rename_i write hwrite
    obtain ⟨hlt, rfl⟩ := List.getElem?_eq_some_iff.1 hwrite
    have honItsWay : (st.writes[i].saved :: (st.writes.eraseIdx i).map Write.saved).Perm
        st.onItsWay := (List.getElem_cons_eraseIdx_perm hlt).map Write.saved
    cases accepted with
    | true =>
      obtain ⟨hstored, hstories, hmessages⟩ := hI.store ids st.writes[i]
      have hpostings := postings_store ids st st.writes[i]
      refine ⟨?_, fun posting hmem => hI.postings posting (hpostings ▸ hmem), hstories, hmessages⟩
      change ((st.store ids st.writes[i]).stored ++ (st.writes.eraseIdx i).map Write.saved ++
        (lost ++ [])).Perm ((st.store ids st.writes[i]).postings.filterMap Posting.confirmed)
      rw [hpostings, List.append_nil]
      refine .trans (.append_right _ ?_) hI.stored
      exact (hstored.append_right _).trans
        (List.perm_middle.symm.trans (honItsWay.append_left _))
    | false =>
      refine ⟨?_, hI.postings, hI.stories, hI.messages⟩
      refine .trans ?_ hI.stored
      rw [Cloud.rejected, hwrite]
      change (st.stored ++ (st.writes.eraseIdx i).map Write.saved ++
        (lost ++ [st.writes[i].saved])).Perm _
      rw [List.append_assoc, List.append_assoc]
      refine .append_left _ (.trans ?_ (honItsWay.append_right _))
      exact ((List.perm_append_singleton _ _).append_left _).trans List.perm_middle
  · rename_i hwrite
    cases accepted with
    | true => simpa [Cloud.rejected] using hI
    | false => simpa [Cloud.rejected, hwrite] using hI

/-- A story is written back by somebody who has played it. -/
theorem Accounted.addViews (hI : st.Accounted lost) {uid : UID} {story : Doc DocID Story}
    (h : ∃ s ∈ st.stories.seen, storyOf s story.id = some story.data) :
    Accounted lost { st with stories := st.stories.next ids (.addViews uid story) } := by
  obtain ⟨s, hs, hcopy⟩ := h
  obtain ⟨b, hb, hsame⟩ := hI.stories s hs _ _ hcopy
  suffices hstore : savedIn Story.decode .ofStory
        (YoYo.StoryService.addViews uid story st.stories.now) =
          savedIn Story.decode .ofStory st.stories.now ∧
      ∀ id a, storyOf st.stories.now id = some a →
        ∃ a', storyOf (YoYo.StoryService.addViews uid story st.stories.now) id = some a' ∧
          Saved.ofStory a' = .ofStory a by
    refine ⟨?_, hI.postings, hI.stories.push hstore.2, hI.messages⟩
    have hstored : { st with stories := st.stories.next ids (.addViews uid story) }.stored =
        st.stored := congrArg (· ++ savedIn Message.decode .ofMessage st.messages.store) hstore.1
    have hsum := hI.stored
    rw [← hstored] at hsum
    exact hsum
  rw [YoYo.StoryService.addViews]
  split
  · -- The copy says what is stored now, but for those who have viewed it.
    rename_i updatedStory hviewed
    rw [YoYo.StoryService.viewed] at hviewed
    split_ifs at hviewed
    cases hviewed
    refine ⟨savedIn_setData hb (Story.decode_encode _) hsame.symm, fun id a ha => ?_⟩
    rw [storyOf_updateStory]
    split_ifs with hid
    · simp only at hid
      rw [hid, hb, Option.some.injEq] at ha
      exact ⟨_, rfl, ha ▸ hsame.symm⟩
    · exact ⟨a, ha, rfl⟩
  · exact ⟨rfl, fun id a ha => ⟨a, ha, rfl⟩⟩

/-- A message is written back as seen. -/
theorem Accounted.updateMessageToSeen (hI : st.Accounted lost) {uid : UID} {message : Copy}
    (h : (uid, message) ∈ st.messages.writes) :
    Accounted lost
      { st with messages := st.messages.next ids (.updateMessageToSeen uid message) } := by
  obtain ⟨-, m, hm, hdata⟩ := hI.messages.writes uid message h
  refine ⟨?_, hI.postings, hI.stories, hI.messages.updateMessageToSeen (g := ids) h⟩
  have hsaved : savedIn Message.decode .ofMessage
      (st.messages.store.setData message.id message.data.encode) =
        savedIn Message.decode .ofMessage st.messages.store := savedIn_setData hm
    (Message.decode_encode _) ((congrArg Saved.ofMessage hdata).trans (Saved.ofMessage_seen m))
  have hstored :
      { st with messages := st.messages.next ids (.updateMessageToSeen uid message) }.stored =
        st.stored := congrArg (savedIn Story.decode .ofStory st.stories.now ++ ·) hsaved
  have hsum := hI.stored
  rw [← hstored] at hsum
  exact hsum

/-- All other events store, reject and confirm nothing. -/
theorem Accounted.unwritten (hI : st.Accounted lost) {e : CloudEvent D}
    (he : st.Allowed reference e) (hunwritten : ∀ i accepted, e ≠ .written i accepted) :
    (st.next isURL same reference uids ids e).Accounted lost := by
  cases e with
  | written i accepted => exact absurd rfl (hunwritten i accepted)
  | post post =>
    obtain ⟨hnone, htells⟩ := tells_prog isURL post
    refine ⟨?_, fun posting hmem => ?_, hI.stories, hI.messages⟩
    · have hconfirmed : (st.postings ++ [(⟨post, post.prog isURL⟩ : Posting D)]).filterMap
          Posting.confirmed = st.confirmed := by
        rw [List.filterMap_append, List.filterMap_cons, Posting.confirmed, hnone]
        exact List.append_nil _
      exact hI.stored.trans (.of_eq hconfirmed.symm)
    · rcases List.mem_append.1 hmem with hmem | hmem
      · exact hI.postings posting hmem
      · exact List.mem_singleton.1 hmem ▸ htells
  | answered i a => exact hI.answered i a
  | addViews uid story => exact hI.addViews he
  | changeMessageStatusToSeen uid messages =>
    exact ⟨hI.stored, hI.postings, hI.stories, hI.messages.changeMessageStatusToSeen
      fun message hmem => hI.messages.later_of_copied (he message hmem)⟩
  | updateMessageToSeen uid message => exact hI.updateMessageToSeen he
  | changeProfilePhoto uid imageData imageURL => exact hI.congr rfl rfl rfl rfl
  | replied i reply =>
    rw [Cloud.next, Cloud.replied]
    split <;> exact hI.congr rfl rfl rfl rfl
  | changeName uid name => exact hI.congr rfl rfl rfl rfl
  | renamed i success =>
    rw [Cloud.next, Cloud.renamed.eq_def]
    split <;> exact hI.congr rfl rfl rfl rfl
  | signingUp e => exact hI.congr rfl rfl rfl rfl

theorem Accounted.next (hI : st.Accounted lost) {e : CloudEvent D}
    (he : st.Allowed reference e) :
    (st.next isURL same reference uids ids e).Accounted (lost ++ (st.rejected e).toList) := by
  cases e with
  | written i accepted => exact hI.written i accepted
  | _ =>
    change Accounted (lost ++ []) _
    rw [List.append_nil]
    exact hI.unwritten he (by simp)

end Cloud

/-- Ann uploads a story, and writes to Bob twice while it is on its way. The store
    rejects the story, and has not got the second text yet. -/
def storyAndTexts : List (CloudEvent ℕ) :=
  [.post (.uploadTapped "ann" 5 (some ⟨1, .image⟩) (some "cat")), .answered 0 succeeding,
    .post (.sendButtonTapped "ann" 4 (some ⟨"Bob", 0, "bob.jpg", "bob", "bob@yoyo"⟩) "hello"),
    .answered 1 succeeding, .answered 0 succeeding, .answered 0 succeeding, .written 1 false,
    .post (.sendButtonTapped "ann" 4 (some ⟨"Bob", 0, "bob.jpg", "bob", "bob@yoyo"⟩) "bye"),
    .answered 2 succeeding, .written 0 true]

end YoYo.Uploads
