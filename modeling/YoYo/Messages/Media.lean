import YoYo.DocStore.Prog
import YoYo.Messages.Receipts
import YoYo.Storage.Service

/-!
# Media messages

A picture or a video is sent in several steps, each in a callback of the one
before: it is uploaded; of a video, a picture is extracted and uploaded, too;
and a message having the URLs of both is saved. Each step may fail, and then
nothing is saved. Any number of clients send media and texts, and mark messages
as seen, in any order.

The cells of a conversation and the previews unwrap these URLs without a check.
As every message of media is saved with both, and written back with both when it
is seen, none of them is ever missing (`drawn_of_run`).
-/

namespace YoYo

open DocStore Storage

/-- The calls of a client sending media: uploads, the extraction of a picture of a
    video, and the saving of a message. -/
inductive SendCall (D : Type)
  | uploadMedia (data : D) (mediaType : MediaType) (fileName : String) (userID : UID)
  | copyCGImage (url : String)
  | saveMessage (message : Message)
  deriving DecidableEq, Repr

/-- Their answers: an upload has a URL, an error, or neither, an extraction an
    error, or data if it can be converted, and a message is saved or not. -/
abbrev SendAnswer {D : Type} : SendCall D → Type
  | .uploadMedia _ _ _ _ => Except String (Option String)
  | .copyCGImage _ => Except String (Option D)
  | .saveMessage _ => Bool

/-- How the sending of media ends: with an alert, silently, or by a trap. -/
inductive SendEnding
  | presentAlert (success : Bool) (msg : String)
  | silent
  | trapped
  deriving DecidableEq, Repr

variable {D : Type}

namespace SendMediaMessageViewController

/-- The message is saved, and an alert tells whether it was. -/
def sendMessageUsing (message : Message) : Prog (SendCall D) SendAnswer SendEnding :=
  .call (.saveMessage message) fun success =>
    if success then .done (.presentAlert true "Successful")
    else .done (.presentAlert false "Failed. Try again later.")

/-- Sending an asset to the user `userModel`, under a title, by the user `myUID`. -/
def onSendButtonTapped (isURL : String → Bool) (myUID : UID) (now : Date)
    (uploadAsset : Option (UploadAsset D)) (userModel : Option UserModel) (title : String) :
    Prog (SendCall D) SendAnswer SendEnding :=
  match uploadAsset, userModel with
  | some uploadAsset, some userModel =>
    if title.length > 0 then
      .call (.uploadMedia uploadAsset.data uploadAsset.mediaType title userModel.userID) fun
        | .error error => .done (.presentAlert false error)
        | .ok none => .done .silent
        | .ok (some url) =>
          let messageType := if uploadAsset.mediaType = .image then MessageType.image else .video
          let message : Message := {
            senderID := myUID
            receiverID := userModel.userID
            date := now
            messageType := messageType
            messageStatus := .send
            message := some title
            assetURL := some url
            thumbnailURL := none }
          if messageType = .image then sendMessageUsing { message with thumbnailURL := some url }
          else if isURL url then
            .call (.copyCGImage url) fun
              | .error _ => .done .silent
              | .ok none => .done .silent
              | .ok (some thumbnailData) =>
                .call (.uploadMedia thumbnailData .image (title ++ "_thumbnail")
                    userModel.userID) fun
                  | .error error => .done (.presentAlert false error)
                  | .ok (some url) => sendMessageUsing { message with thumbnailURL := some url }
                  | .ok none => .done (.presentAlert false "unable to create thumbnail")
          else .done .trapped
    else .done .silent
  | _, _ => .done .silent

end SendMediaMessageViewController

/-! ## Readers -/

/-- What is drawn of a message: a picture, unless there is none, or unwrapping a URL traps. -/
inductive Drawing
  | image (url : String)
  | video (url : String)
  | nothing
  | trapped
  deriving DecidableEq, Repr

/-- The picture in the cell of a message. -/
def MessageTableViewCell.setAssetImage (isURL : String → Bool) (message : Message) : Drawing :=
  if message.messageType ≠ .plain then
    match message.thumbnailURL with
    | some thumbnailURL => if isURL thumbnailURL then .image thumbnailURL else .trapped
    | none => .trapped
  else .nothing

/-- The preview of a picture. (The URL itself may be malformed.) -/
def PreviewMediaViewController.viewDidLoad (message : Option Message) : Drawing :=
  match message with
  | some message =>
    if message.messageType = .image then
      match message.assetURL with
      | some assetURL => .image assetURL
      | none => .trapped
    else .nothing
  | none => .nothing

/-- The preview of a video, which is one whatever the type of the message. -/
def PreviewVideoViewController.viewDidLoad (isURL : String → Bool) (message : Option Message) :
    Drawing :=
  match message with
  | some message =>
    match message.assetURL with
    | some assetURL => if isURL assetURL then .video assetURL else .trapped
    | none => .trapped
  | none => .nothing

/-- A tap on a message opens the preview it has, if any. -/
def MessageViewController.didSelectRowAt (isURL : String → Bool) (message : Message) : Drawing :=
  if message.messageType = .image then PreviewMediaViewController.viewDidLoad (some message)
  else if message.messageType = .video then
    PreviewVideoViewController.viewDidLoad isURL (some message)
  else .nothing

/-! ## Clients -/

/-- The messages of all users, and the media being sent. -/
structure MediaMessages (D : Type) where
  world : Messages
  sends : List (Prog (SendCall D) SendAnswer SendEnding)

/-- What clients do: they send texts and media, whose calls are answered by and
    by, and mark messages as seen. -/
inductive MediaEvent (D : Type)
  | sendButtonTapped (uid : UID) (now : Date) (userModel : Option UserModel) (messageTxt : String)
  | onSendButtonTapped (uid : UID) (now : Date) (uploadAsset : Option (UploadAsset D))
    (userModel : Option UserModel) (title : String)
  | answered (i : ℕ) (a : (c : SendCall D) → SendAnswer c)
  | changeMessageStatusToSeen (uid : UID) (messages : List Copy)
  | updateMessageToSeen (uid : UID) (message : Copy)

namespace MediaMessages

/-- No messages, and nothing being sent. -/
def init : MediaMessages D := ⟨.init, []⟩

/-- A text is sent, if there is one. -/
def sendButtonTapped (g : AutoId DocID) (w : Messages) (uid : UID) (now : Date)
    (userModel : Option UserModel) (messageTxt : String) : Messages :=
  match userModel with
  | some userModel =>
    if messageTxt.length > 0 then
      w.next g (.sendMessage uid (some messageTxt) userModel.userID .plain none now)
    else w
  | none => w

/-- The messages once a call is answered: one that is saved is there. -/
def saved (g : AutoId DocID) (w : Messages) (a : (c : SendCall D) → SendAnswer c) :
    Prog (SendCall D) SendAnswer SendEnding → Messages
  | .call (.saveMessage message) _ =>
    if a (.saveMessage message) then w.next g (.sendMessageUsing message) else w
  | _ => w

/-- The next state. -/
def next (isURL : String → Bool) (g : AutoId DocID) (st : MediaMessages D) :
    MediaEvent D → MediaMessages D
  | .sendButtonTapped uid now userModel messageTxt =>
    { st with world := sendButtonTapped g st.world uid now userModel messageTxt }
  | .onSendButtonTapped uid now uploadAsset userModel title =>
    { st with
      sends := st.sends ++ [SendMediaMessageViewController.onSendButtonTapped isURL uid now
        uploadAsset userModel title] }
  | .answered i a =>
    match st.sends[i]? with
    | some send => ⟨saved g st.world a send, st.sends.set i (send.resume a)⟩
    | none => st
  | .changeMessageStatusToSeen uid messages =>
    { st with world := st.world.changeMessageStatusToSeen uid messages }
  | .updateMessageToSeen uid message =>
    { st with world := st.world.next g (.updateMessageToSeen uid message) }

/-- The URL of an upload is well-formed. -/
def WellFormed (isURL : String → Bool) : (c : SendCall D) → SendAnswer c → Prop
  | .uploadMedia _ _ _ _, .ok (some url) => isURL url
  | .uploadMedia _ _ _ _, .ok none | .uploadMedia _ _ _ _, .error _ => True
  | .copyCGImage _, _ | .saveMessage _, _ => True

instance (isURL : String → Bool) : ∀ (c : SendCall D) a, Decidable (WellFormed isURL c a)
  | .uploadMedia _ _ _ _, .ok (some _) => inferInstanceAs (Decidable (_ = true))
  | .uploadMedia _ _ _ _, .ok none | .uploadMedia _ _ _ _, .error _ => .isTrue trivial
  | .copyCGImage _, _ | .saveMessage _, _ => .isTrue trivial

/-- What the next call of a client is answered has well-formed URLs. -/
def AnswersWellFormed (isURL : String → Bool) (a : (c : SendCall D) → SendAnswer c) :
    Option (Prog (SendCall D) SendAnswer SendEnding) → Prop
  | some (.call c _) => WellFormed isURL c (a c)
  | some (.done _) | none => True

instance (isURL : String → Bool) (a : (c : SendCall D) → SendAnswer c) :
    ∀ send, Decidable (AnswersWellFormed isURL a send)
  | some (.call c _) => inferInstanceAs (Decidable (WellFormed isURL c (a c)))
  | some (.done _) | none => .isTrue trivial

/-- Uploads have well-formed URLs. Messages that are marked are copies, and those
    written are on their way. -/
def Allowed (isURL : String → Bool) (st : MediaMessages D) : MediaEvent D → Prop
  | .sendButtonTapped _ _ _ _ | .onSendButtonTapped _ _ _ _ _ => True
  | .answered i a => AnswersWellFormed isURL a st.sends[i]?
  | .changeMessageStatusToSeen _ messages => ∀ message ∈ messages, st.world.Copied message
  | .updateMessageToSeen uid message => (uid, message) ∈ st.world.writes

instance (isURL : String → Bool) (st : MediaMessages D) : ∀ e, Decidable (st.Allowed isURL e)
  | .sendButtonTapped _ _ _ _ | .onSendButtonTapped _ _ _ _ _ => .isTrue trivial
  | .answered i a => inferInstanceAs (Decidable (AnswersWellFormed isURL a st.sends[i]?))
  | .changeMessageStatusToSeen _ messages => inferInstanceAs (Decidable (∀ message ∈ messages, _))
  | .updateMessageToSeen uid message =>
    inferInstanceAs (Decidable ((uid, message) ∈ st.world.writes))

end MediaMessages

/-! ## What is saved -/

/-- If the message is not a text, it has well-formed URLs of its asset and of its picture. -/
def Message.Drawable (isURL : String → Bool) (m : Message) : Prop :=
  m.messageType ≠ .plain →
    (∃ url, m.assetURL = some url ∧ isURL url) ∧ ∃ url, m.thumbnailURL = some url ∧ isURL url

/-- Nothing traps when the message is drawn, previewed or tapped. -/
structure Message.Drawn (isURL : String → Bool) (m : Message) : Prop where
  cell : MessageTableViewCell.setAssetImage isURL m ≠ .trapped
  media : PreviewMediaViewController.viewDidLoad (some m) ≠ .trapped
  video : m.messageType ≠ .plain →
    PreviewVideoViewController.viewDidLoad isURL (some m) ≠ .trapped
  row : MessageViewController.didSelectRowAt isURL m ≠ .trapped

/-- If the call saves a message, that can be drawn. -/
def SendCall.SavesDrawable (isURL : String → Bool) : SendCall D → Prop
  | .saveMessage message => message.Drawable isURL
  | .uploadMedia _ _ _ _ | .copyCGImage _ => True

variable {isURL : String → Bool} {g : AutoId DocID} {m : Message} {s : MessagesStore} {uid : UID}
  {messages : List Copy} {message : Copy} {w : Messages} {st : MediaMessages D}

namespace Message

theorem drawable_of_plain (h : m.messageType = .plain) : m.Drawable isURL :=
  fun hne => absurd h hne

/-- A message of media with both URLs. -/
theorem drawable_of_urls {url url' : String} (hasset : m.assetURL = some url) (hurl : isURL url)
    (hthumbnail : m.thumbnailURL = some url') (hurl' : isURL url') : m.Drawable isURL :=
  fun _ => ⟨⟨url, hasset, hurl⟩, url', hthumbnail, hurl'⟩

/-- Seeing a message keeps its URLs. -/
theorem Drawable.seen (h : m.Drawable isURL) : m.seen.Drawable isURL := h

theorem Drawable.drawn (h : m.Drawable isURL) : m.Drawn isURL := by
  have hvideo : m.messageType ≠ .plain →
      PreviewVideoViewController.viewDidLoad isURL (some m) ≠ .trapped := by
    intro hne
    obtain ⟨⟨url, hasset, hurl⟩, -⟩ := h hne
    simp [PreviewVideoViewController.viewDidLoad, hasset, hurl]
  have hmedia : PreviewMediaViewController.viewDidLoad (some m) ≠ .trapped := by
    by_cases htype : m.messageType = .image
    · obtain ⟨⟨url, hasset, -⟩, -⟩ := h (by simp [htype])
      simp [PreviewMediaViewController.viewDidLoad, htype, hasset]
    · simp [PreviewMediaViewController.viewDidLoad, htype]
  refine ⟨?_, hmedia, hvideo, ?_⟩
  · by_cases htype : m.messageType = .plain
    · simp [MessageTableViewCell.setAssetImage, htype]
    · obtain ⟨-, url, hthumbnail, hurl⟩ := h htype
      simp [MessageTableViewCell.setAssetImage, htype, hthumbnail, hurl]
  · rw [MessageViewController.didSelectRowAt]
    split_ifs with himage hvideo'
    · exact hmedia
    · exact hvideo (by simp [hvideo'])
    · exact Drawing.noConfusion

end Message

namespace SendMediaMessageViewController

open MediaMessages

theorem allCalls_sendMessageUsing (h : m.Drawable isURL) :
    (sendMessageUsing (D := D) m).AllCalls (WellFormed isURL) (SendCall.SavesDrawable isURL)
      (· ≠ .trapped) := by
  refine ⟨h, fun success _ => ?_⟩
  cases success <;> exact SendEnding.noConfusion

/-- Whatever happens on the way, a message that is saved has both URLs. -/
theorem allCalls_onSendButtonTapped (now : Date) (uploadAsset : Option (UploadAsset D))
    (userModel : Option UserModel) (title : String) :
    (onSendButtonTapped isURL uid now uploadAsset userModel title).AllCalls (WellFormed isURL)
      (SendCall.SavesDrawable isURL) (· ≠ .trapped) := by
  have hsilent : (Prog.done SendEnding.silent : Prog (SendCall D) SendAnswer SendEnding).AllCalls
      (WellFormed isURL) (SendCall.SavesDrawable isURL) (· ≠ .trapped) := SendEnding.noConfusion
  cases uploadAsset with
  | none => exact hsilent
  | some uploadAsset =>
    cases userModel with
    | none => exact hsilent
    | some userModel =>
      rw [onSendButtonTapped]
      split_ifs with hlen himage
      · -- A picture: its URL is that of the asset, too.
        refine ⟨trivial, fun answer hurl => ?_⟩
        rcases answer with error | _ | url
        · exact SendEnding.noConfusion
        · exact hsilent
        · exact allCalls_sendMessageUsing (Message.drawable_of_urls rfl hurl rfl hurl)
      · -- A video: a picture of it is uploaded before anything is saved.
        refine ⟨trivial, fun answer hurl => ?_⟩
        rcases answer with error | _ | url
        · exact SendEnding.noConfusion
        · exact hsilent
        · have hurl : isURL url := hurl
          simp only [reduceCtorEq, if_false, hurl, if_true]
          refine ⟨trivial, fun answer _ => ?_⟩
          rcases answer with error | _ | thumbnailData
          · exact hsilent
          · exact hsilent
          · refine ⟨trivial, fun answer hurl' => ?_⟩
            rcases answer with error | _ | url'
            · exact SendEnding.noConfusion
            · exact SendEnding.noConfusion
            · exact allCalls_sendMessageUsing (Message.drawable_of_urls rfl hurl rfl hurl')
      · exact hsilent

end SendMediaMessageViewController

/-! ## Runs -/

namespace MediaMessages

/-- What the runs keep: all messages there have been, those on their way to be
    written, and those to be saved, can be drawn. -/
structure Sane (isURL : String → Bool) (st : MediaMessages D) : Prop where
  versions : ∀ s ∈ st.world.history.seen, ∀ id m, messageOf s id = some m → m.Drawable isURL
  writes : ∀ uid message, (uid, message) ∈ st.world.writes → message.data.Drawable isURL
  sends : ∀ send ∈ st.sends,
    send.AllCalls (WellFormed isURL) (SendCall.SavesDrawable isURL) (· ≠ .trapped)

theorem sane_init : (init : MediaMessages D).Sane isURL where
  versions s hs id m hm := by
    rw [Versions.mem_seen_init.1 hs] at hm
    cases hm
  writes _ _ h := absurd h List.not_mem_nil
  sends _ h := absurd h List.not_mem_nil

/-- A copy can be drawn. -/
theorem Sane.of_copied (hI : st.Sane isURL) (h : st.world.Copied message) :
    message.data.Drawable isURL := by
  obtain ⟨s, hs, m, hm, hdata⟩ := h
  have hdrawable := hI.versions s hs message.id m hm
  rcases hdata with hdata | hdata
  · exact hdata ▸ hdrawable
  · exact hdata ▸ hdrawable.seen

/-- A new version, in which all messages can be drawn. -/
theorem Sane.push (hI : st.Sane isURL)
    (hs : ∀ id m, messageOf s id = some m → m.Drawable isURL) :
    ({ st with world := st.world.push s } : MediaMessages D).Sane isURL where
  versions s' hs' := by
    rcases Versions.mem_seen_push.1 hs' with rfl | hs'
    · exact hs
    · exact hI.versions s' hs'
  writes := hI.writes
  sends := hI.sends

/-- Saving a message that can be drawn. -/
theorem Sane.saveMessage (hI : st.Sane isURL) (hm : m.Drawable isURL) :
    ({ st with world := st.world.push (DatabaseService.saveMessage g m st.world.store) } :
      MediaMessages D).Sane isURL := by
  refine hI.push fun id m' hm' => ?_
  rw [messageOf_saveMessage] at hm'
  split_ifs at hm' with hid
  · exact Option.some.inj hm' ▸ hm
  · exact hI.versions _ (Versions.now_mem_seen _) id m' hm'

/-- Messages are marked as seen, as they are. -/
theorem Sane.changeMessageStatusToSeen (hI : st.Sane isURL)
    (h : ∀ message ∈ messages, st.world.Copied message) :
    ({ st with world := st.world.changeMessageStatusToSeen uid messages } :
      MediaMessages D).Sane isURL where
  versions := hI.versions
  writes uid' message hmem := by
    rcases List.mem_append.1 hmem with hmem | hmem
    · exact hI.writes uid' message hmem
    · obtain ⟨message₁, hmem₁, heq⟩ := List.mem_map.1 hmem
      cases heq
      obtain ⟨message₀, hmem₀, rfl⟩ := List.mem_map.1 hmem₁
      exact (hI.of_copied (h message₀ (List.mem_filter.1 hmem₀).1)).seen
  sends := hI.sends

/-- The write of a message seen. -/
theorem Sane.updateMessageToSeen (hI : st.Sane isURL) (h : (uid, message) ∈ st.world.writes) :
    ({ st with world := st.world.next g (.updateMessageToSeen uid message) } :
      MediaMessages D).Sane isURL := by
  have hpush := hI.push (s := DatabaseService.updateMessageToSeen message st.world.store)
    fun id m hm => by
      rw [messageOf_updateMessageToSeen] at hm
      split_ifs at hm with hid
      · exact Option.some.inj hm ▸ hI.writes uid message h
      · exact hI.versions _ (Versions.now_mem_seen _) id m hm
  exact ⟨hpush.versions, fun uid' message' h' =>
    hpush.writes uid' message' (List.mem_of_mem_erase h'), hpush.sends⟩

/-- A call of a client sending media is answered. -/
theorem Sane.answered (hI : st.Sane isURL) {i : ℕ} {a : (c : SendCall D) → SendAnswer c}
    (ha : st.Allowed isURL (.answered i a)) : (st.next isURL g (.answered i a)).Sane isURL := by
  rw [next]
  cases hsend : st.sends[i]? with
  | none => exact hI
  | some send =>
    have hcalls := hI.sends send (List.mem_of_getElem? hsend)
    have hworld : ({ st with world := saved g st.world a send } : MediaMessages D).Sane isURL := by
      match send, hcalls with
      | .done _, _ | .call (.uploadMedia _ _ _ _) _, _ | .call (.copyCGImage _) _, _ => exact hI
      | .call (.saveMessage m) k, hcalls =>
        rw [saved]
        split_ifs
        · exact hI.saveMessage hcalls.1
        · exact hI
    refine ⟨hworld.versions, hworld.writes, fun send' hmem => ?_⟩
    rcases List.mem_or_eq_of_mem_set hmem with hmem | rfl
    · exact hI.sends send' hmem
    · refine hcalls.resume fun c k hck => ?_
      rw [Allowed, hsend, hck] at ha
      exact ha

theorem Sane.next (hI : st.Sane isURL) {e : MediaEvent D} (he : st.Allowed isURL e) :
    (st.next isURL g e).Sane isURL := by
  cases e with
  | sendButtonTapped uid now userModel messageTxt =>
    cases userModel with
    | none => exact hI
    | some userModel =>
      simp only [MediaMessages.next, sendButtonTapped]
      split_ifs
      · exact hI.saveMessage (Message.drawable_of_plain rfl)
      · exact hI
  | onSendButtonTapped uid now uploadAsset userModel title =>
    refine ⟨hI.versions, hI.writes, fun send hmem => ?_⟩
    rcases List.mem_append.1 hmem with hmem | hmem
    · exact hI.sends send hmem
    · rw [List.mem_singleton.1 hmem]
      exact SendMediaMessageViewController.allCalls_onSendButtonTapped now uploadAsset userModel
        title
  | answered i a => exact hI.answered he
  | changeMessageStatusToSeen uid messages => exact hI.changeMessageStatusToSeen he
  | updateMessageToSeen uid message => exact hI.updateMessageToSeen he

end MediaMessages

/-- In every run of any clients, whose uploads have well-formed URLs, all messages
    of media stored have both of their URLs, and nothing traps in drawing what any
    client may have read. -/
theorem drawn_of_run {es : List (MediaEvent D)}
    (h : AllSteps (MediaMessages.next isURL g) (MediaMessages.Allowed isURL) .init es) :
    (∀ id m, messageOf (after (MediaMessages.next isURL g) .init es).world.store id = some m →
      m.messageType ≠ .plain → m.assetURL.isSome ∧ m.thumbnailURL.isSome) ∧
    ∀ message, (after (MediaMessages.next isURL g) .init es).world.Copied message →
      message.data.Drawn isURL := by
  have hI := h.invariant (I := MediaMessages.Sane isURL) (fun _ _ hI he => hI.next he)
    MediaMessages.sane_init
  refine ⟨fun id m hm htype => ?_, fun message hcopied => (hI.of_copied hcopied).drawn⟩
  obtain ⟨⟨url, hasset, -⟩, url', hthumbnail, -⟩ :=
    hI.versions _ (Versions.now_mem_seen _) id m hm htype
  exact ⟨Option.isSome_iff_exists.2 ⟨url, hasset⟩, Option.isSome_iff_exists.2 ⟨url', hthumbnail⟩⟩

/-- Every step of the sending of a video succeeds. -/
def videoAnswers : (c : SendCall Unit) → SendAnswer c
  | .uploadMedia _ mediaType _ _ =>
    .ok (some (if mediaType = .image then "https://yoyo/cat.jpg" else "https://yoyo/cat.mp4"))
  | .copyCGImage _ => .ok (some ())
  | .saveMessage _ => true

/-- The message of the video, seen. -/
def catVideo : Copy :=
  ⟨1, ⟨"bob", "ann", 5, .video, .seen, some "cat", some "https://yoyo/cat.mp4",
    some "https://yoyo/cat.jpg"⟩⟩

/-- Bob sends a video to ann, who sees it. -/
def videoSent : List (MediaEvent Unit) :=
  [.onSendButtonTapped "bob" 5 (some ⟨(), .video⟩)
      (some ⟨"Ann", 0, "ann.jpg", "ann", "ann@yoyo"⟩) "cat",
    .answered 0 videoAnswers, .answered 0 videoAnswers, .answered 0 videoAnswers,
    .answered 0 videoAnswers,
    .changeMessageStatusToSeen "ann"
      [⟨1, { catVideo.data with messageStatus := .send }⟩],
    .updateMessageToSeen "ann" catVideo]

theorem drawn_videoSent :
    (catVideo.data.assetURL.isSome ∧ catVideo.data.thumbnailURL.isSome) ∧
      catVideo.data.Drawn (· != "") := by
  have hrun := @drawn_of_run Unit (· != "") succId videoSent (by decide)
  exact ⟨hrun.1 1 catVideo.data (by decide) (by decide), hrun.2 catVideo (by decide)⟩

end YoYo
