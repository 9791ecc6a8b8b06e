import ModelMapper.Mapper.Cursor
import ModelMapper.Models.Goods

/-! # A tour of the models

Content is stored through a mapper, one model after the other, and read back with its
relations.

* `Content` — what is stored.
* `Tour`, `Content.tour` — what is seen on the way: the instances before and after their
  relations were loaded, and what the relations lead to.
-/

namespace ModelMapper

structure Content where
  users : List String
  posts : List (String × Int64)
  tags : List String
  links : List (Int64 × Int64)
  items : List (String × Option Int64)
  products : List (String × Int64 × Bool)
deriving Inhabited

structure UserSeen where
  before : String
  posts : Except Failure (List String)
  after : String

structure PostSeen where
  author : Except Failure (Option String)
  tags : Except Failure (List String)
  after : String

structure Tour where
  detachedPosts : Except Failure (List Instance)
  detachedAuthor : Except Failure (Option Instance)
  users : List UserSeen
  posts : List PostSeen
  tags : List String
  links : List String
  items : List String
  products : List String

namespace Tour

variable {σ : Type}

def models : Catalog :=
  .ofList "blog" [User.schema, Post.schema, Tag.schema, PostTag.schema, Item.schema,
    Product.schema]

/-- A text field of a related instance. -/
def textOf (field : String) (i : Instance) : String :=
  match i.record.value field with
  | .text s => s
  | _ => ""

def everyOne {M : Type} (b : Backend σ) (m : Model M) : Op (Mapper σ) (List M) := do
  let c ← (Search.ofNodes .database m.schema []).all b
  (Mapper.onStore (c.toList b m)).guarded

/-- A step on the store that keeps its outcome. -/
def onStore {α : Type} (step : StateM (Traced σ) α) : Op (Mapper σ) α :=
  Call.guarded (Mapper.onStore (ExceptT.lift step))

def seeUser (b : Backend σ) (u : User) : Op (Mapper σ) UserSeen := do
  let (posts, loaded) ← onStore (u.loadPosts b)
  pure ⟨u.debugText, posts.map fun is => is.map (textOf "title"), loaded.debugText⟩

def seePost (b : Backend σ) (p : Post) : Op (Mapper σ) PostSeen := do
  let (author, p) ← onStore (p.loadAuthor b)
  let (tags, p) ← onStore (p.loadTags b)
  pure ⟨author.map fun i => i.map (textOf "name"), tags.map fun is => is.map (textOf "name"),
    p.debugText⟩

end Tour

/-- Store the content, one model after the other. -/
def Content.store {σ : Type} (b : Backend σ) (c : Content) : Op (Mapper σ) Unit := do
  let add {M : Type} (m : Model M) (given : List M) : Op (Mapper σ) Unit := do
    let _ ← Mapper.add b m .database given
  add User.model (c.users.map User.new)
  add Post.model (c.posts.map fun (title, author) => Post.new title author)
  add Tag.model (c.tags.map fun name => ⟨none, name⟩)
  add PostTag.model (c.links.map fun (post, tag) => ⟨post, tag⟩)
  add Item.model (c.items.map fun (name, position) => ⟨none, name, position⟩)
  add Product.model (c.products.map fun (category, price, inStock) =>
    ⟨none, category, price, inStock⟩)

/-- Store the content and look at all of it. -/
def Content.tour {σ : Type} (b : Backend σ) (c : Content) : Op (Mapper σ) Tour := do
  Call.guarded (Mapper.register Tour.models)
  c.store b
  let (detachedPosts, _) ← Tour.onStore ((User.new "").loadPosts b)
  let (detachedAuthor, _) ← Tour.onStore ((Post.new "" 0).loadAuthor b)
  let users ← (← Tour.everyOne b User.model).mapM (Tour.seeUser b)
  let posts ← (← Tour.everyOne b Post.model).mapM (Tour.seePost b)
  let tags ← Tour.everyOne b Tag.model
  let links ← Tour.everyOne b PostTag.model
  let items ← Tour.everyOne b Item.model
  let products ← Tour.everyOne b Product.model
  pure ⟨detachedPosts, detachedAuthor, users, posts, tags.map Tag.debugText,
    links.map PostTag.debugText, items.map Item.debugText, products.map Product.debugText⟩

end ModelMapper
