import YoYo.DocStore.Run
import YoYo.Models

/-!
# The story service

The operations on stories, on the collection `stories`: a story is uploaded as a
new document, and read in queries by the ids of its owner. Whoever plays it adds
himself to those who have viewed it, in his copy, and writes the whole of the
copy back.
-/

namespace YoYo

open DocStore

/-- The collection `stories`. -/
abbrev StoriesStore := Collection DocID StoryDoc

namespace DatabaseService

/-- Saving a story, to a new document. -/
def saveStory (g : AutoId DocID) (story : Story) (s : StoriesStore) : StoriesStore :=
  s.addDocument g story.encode

/-- The stories of the users `uids` that have not expired. -/
def getStoriesWithUID (uids : List UID) (today : Date) (s : StoriesStore) :
    List (Doc DocID Story) :=
  (decodeAll Story.decode (s.query fun d => uids.any fun uid => d.uid.is uid)).filter
    fun story => today ≤ story.data.expiryDate

/-- Writing a story back to its document. -/
def updateStory (story : Doc DocID Story) (s : StoriesStore) : StoriesStore :=
  s.setData story.id story.data.encode

end DatabaseService

namespace StoryService

/-- Uploading an asset as a story of the user `uid`, at the time `expiryDate` less a day. -/
def uploadStory (g : AutoId DocID) (uid : UID) (title : String) (expiryDate : Date)
    (assetURL : String) (mediaType : MediaType) (s : StoriesStore) : StoriesStore :=
  DatabaseService.saveStory g { uid, title, expiryDate, assetURL, viewedBy := [], mediaType } s

/-- The copy of a story that its viewer `uid` writes back, if he does. -/
def viewed (uid : UID) (story : Doc DocID Story) : Option (Doc DocID Story) :=
  if uid ≠ story.data.uid ∧ uid ∉ story.data.viewedBy then
    some ⟨story.id, { story.data with viewedBy := story.data.viewedBy ++ [uid] }⟩
  else none

/-- Playing a story, of which the user `uid` has the copy `story`. -/
def addViews (uid : UID) (story : Doc DocID Story) (s : StoriesStore) : StoriesStore :=
  match viewed uid story with
  | some updatedStory => DatabaseService.updateStory updatedStory s
  | none => s

end StoryService

/-- What happens to stories. A play happens when what it writes, if anything,
    reaches the store. -/
inductive StoryEvent
  | uploadStory (uid : UID) (title : String) (expiryDate : Date) (assetURL : String)
    (mediaType : MediaType)
  | addViews (uid : UID) (story : Doc DocID Story)
  deriving DecidableEq, Repr

namespace StoryEvent

/-- The store after an event. -/
def onStore (g : AutoId DocID) : StoryEvent → StoriesStore → StoriesStore
  | uploadStory uid title expiryDate assetURL mediaType =>
    StoryService.uploadStory g uid title expiryDate assetURL mediaType
  | addViews uid story => StoryService.addViews uid story

end StoryEvent

/-- The stores there have been. -/
abbrev StoriesHistory := Versions StoriesStore

namespace StoriesHistory

/-- No stories, and nothing before. -/
abbrev init : StoriesHistory := Versions.init .empty

/-- The history after an event. -/
def next (g : AutoId DocID) (h : StoriesHistory) (e : StoryEvent) : StoriesHistory :=
  h.push (e.onStore g h.now)

/-- A copy of a story is one fetched at any time before. -/
def Allowed (h : StoriesHistory) : StoryEvent → Prop
  | .uploadStory _ _ _ _ _ => True
  | .addViews _ story =>
    ∃ s ∈ h.seen, ∃ uids today, story ∈ DatabaseService.getStoriesWithUID uids today s

end StoriesHistory

end YoYo
