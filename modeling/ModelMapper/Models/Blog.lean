import ModelMapper.Lazy.Relation
import ModelMapper.Text.Debug

/-! # The models of a blog

Users write posts, and rows of their own give posts tags. Related instances are kept as they
are read: a record and the session it came from.

* `User`, `Post`, `Tag`, `PostTag` — the models, each with its schema and its way from and to
  records.
* `User.loadPosts`, `Post.loadAuthor`, `Post.loadTags` — the relations.
-/

namespace ModelMapper

def keyField : Field := .ofMarks "id" .int [.key, .auto]

/-- A number that may be absent. -/
def optionalInt (i : Option Int64) : Value := .ofOption .int i

/-! ## Users -/

structure User where
  id : Option Int64
  name : String
  posts : LazyField (List Instance)
  loader : Loader
deriving Inhabited

namespace User

def schema : Schema := ⟨"User", [keyField, .ofMarks "name" .text []]⟩

/-- A user that was never stored. -/
def new (name : String) : User := ⟨none, name, .detached, ⟨0⟩⟩

def toRecord (u : User) : Record :=
  .ofList [("id", optionalInt u.id), ("name", .text u.name)]

def ofRecord (r : Record) (loader : Loader) : Result User := do
  pure ⟨← r.read (Value.asOption Value.asInt) "id", ← r.read Value.asText "name", .unloaded,
    loader⟩

def model : Model User := ⟨schema, toRecord, ofRecord⟩

def debugText (u : User) : String :=
  Debug.structureText "User"
    [("id", Debug.option Debug.int u.id), ("name", Debug.text u.name),
      ("posts", u.posts.display)]

end User

/-! ## Posts -/

structure Post where
  id : Option Int64
  title : String
  authorId : Int64
  author : LazyField (Option Instance)
  tags : LazyField (List Instance)
  loader : Loader
deriving Inhabited

namespace Post

def schema : Schema :=
  ⟨"Post", [keyField, .ofMarks "title" .text [],
    .ofMarks "author_id" .int [.references ⟨"User", "id"⟩]]⟩

/-- A post that was never stored. -/
def new (title : String) (authorId : Int64) : Post :=
  ⟨none, title, authorId, .detached, .detached, ⟨0⟩⟩

def toRecord (p : Post) : Record :=
  .ofList [("id", optionalInt p.id), ("title", .text p.title), ("author_id", .int p.authorId)]

def ofRecord (r : Record) (loader : Loader) : Result Post := do
  pure ⟨← r.read (Value.asOption Value.asInt) "id", ← r.read Value.asText "title",
    ← r.read Value.asInt "author_id", .unloaded, .unloaded, loader⟩

def model : Model Post := ⟨schema, toRecord, ofRecord⟩

def debugText (p : Post) : String :=
  Debug.structureText "Post"
    [("id", Debug.option Debug.int p.id), ("title", Debug.text p.title),
      ("author_id", Debug.int p.authorId), ("author", p.author.display),
      ("tags", p.tags.display)]

end Post

/-! ## Tags -/

structure Tag where
  id : Option Int64
  name : String
deriving Inhabited

namespace Tag

def schema : Schema := ⟨"Tag", [keyField, .ofMarks "name" .text []]⟩

def toRecord (t : Tag) : Record :=
  .ofList [("id", optionalInt t.id), ("name", .text t.name)]

def ofRecord (r : Record) (_ : Loader) : Result Tag := do
  pure ⟨← r.read (Value.asOption Value.asInt) "id", ← r.read Value.asText "name"⟩

def model : Model Tag := ⟨schema, toRecord, ofRecord⟩

def debugText (t : Tag) : String :=
  Debug.structureText "Tag"
    [("id", Debug.option Debug.int t.id), ("name", Debug.text t.name)]

end Tag

structure PostTag where
  postId : Int64
  tagId : Int64
deriving Inhabited

namespace PostTag

def schema : Schema :=
  ⟨"PostTag", [.ofMarks "post_id" .int [.key, .references ⟨"Post", "id"⟩],
    .ofMarks "tag_id" .int [.key, .references ⟨"Tag", "id"⟩]]⟩

def toRecord (l : PostTag) : Record :=
  .ofList [("post_id", .int l.postId), ("tag_id", .int l.tagId)]

def ofRecord (r : Record) (_ : Loader) : Result PostTag := do
  pure ⟨← r.read Value.asInt "post_id", ← r.read Value.asInt "tag_id"⟩

def model : Model PostTag := ⟨schema, toRecord, ofRecord⟩

def debugText (l : PostTag) : String :=
  Debug.structureText "PostTag" [("post_id", Debug.int l.postId), ("tag_id", Debug.int l.tagId)]

end PostTag

/-! ## Relations -/

variable {τ : Type}

def User.loadPosts (b : Backend τ) (u : User) :
    StateM (Traced τ) (Except Failure (List Instance) × User) := do
  let (outcome, posts) ← u.posts.resolve
    (u.loader.everyRelated b schema (Model.ofSchema Post.schema) u.toRecord)
  pure (outcome, { u with posts := posts })

def Post.loadAuthor (b : Backend τ) (p : Post) :
    StateM (Traced τ) (Except Failure (Option Instance) × Post) := do
  let (outcome, author) ← p.author.resolve
    (p.loader.related b schema (Model.ofSchema User.schema) p.toRecord)
  pure (outcome, { p with author := author })

def Post.loadTags (b : Backend τ) (p : Post) :
    StateM (Traced τ) (Except Failure (List Instance) × Post) := do
  let (outcome, tags) ← p.tags.resolve
    (p.loader.associated b schema PostTag.schema (Model.ofSchema Tag.schema) p.toRecord)
  pure (outcome, { p with tags := tags })

end ModelMapper
