import RecordMapper.Session.Query
import RecordMapper.Session.Saving

/-!
# Galleries, images and tags

A small registry with a relation of every kind.  Galleries have images, images have tags through
pivots, and the pivots of a second kind have no key of their own.
-/

namespace RecordMapper.Gallery

def serial (name : String) : Field :=
  { name, typeName := "serial" }

def integer (name : String) : Field :=
  { name, typeName := "integer" }

def string (name : String) : Field :=
  { name, typeName := "string" }

def float (name : String) : Field :=
  { name, typeName := "float" }

def model (name table : String) (fields : List Field) (relations : List RelationDecl) : Schema :=
  { model := name, table := some table, key := some "id", fields, constraints := [], relations }

def hasMany (name target : String) (keys : String × String) (fields : List String) :
    RelationDecl :=
  ⟨name, .tie .hasMany { target, keys := some keys, fields }⟩

def belongsTo (name target : String) (keys : String × String) : RelationDecl :=
  ⟨name, .tie .belongsTo { target, keys := some keys }⟩

def route (name through far : String) : RelationDecl :=
  ⟨name, .route { through, far }⟩

def gallery : Schema :=
  model "Gallery" "gallery" [serial "id", string "name"]
    [hasMany "images" "Image" ("id", "gallery_id") [],
     hasMany "titles" "Image" ("id", "gallery_id") ["title"]]

def image : Schema :=
  model "Image" "image" [serial "id", integer "gallery_id", string "title"]
    [hasMany "images_tags" "ImageTag" ("id", "image_id") [], route "tags" "images_tags" "tag",
     hasMany "labels" "Label" ("id", "image_id") [], route "label_tags" "labels" "tag"]

def imageTag : Schema :=
  model "ImageTag" "images_tags" [serial "id", integer "image_id", integer "tag_id"]
    [belongsTo "tag" "Tag" ("tag_id", "id")]

/-- A pivot without a key. -/
def label : Schema :=
  model "Label" "labels" [integer "image_id", integer "tag_id", float "weight"]
    [belongsTo "tag" "Tag" ("tag_id", "id")]

def tag : Schema :=
  model "Tag" "tag" [serial "id", string "name"] []

def registry : Registry :=
  ⟨.standard, [gallery, image, imageTag, label, tag]⟩

/-- Images that know their galleries. -/
def hung : Schema :=
  model "Image" "image" [serial "id", integer "gallery_id", string "title"]
    [belongsTo "gallery" "Gallery" ("gallery_id", "id")]

def answering (rows : List Row) : Connection :=
  ⟨Dialect.generic.platform, fun _ _ => .ok rows, fun _ => none⟩

def database (rows : List Row) : Database :=
  ⟨answering rows, registry⟩

def answeringEach (answers : List (String × List Row)) : Connection :=
  ⟨Dialect.generic.platform, fun _ sql => .ok ((answers.lookup sql).getD []), fun _ => none⟩

def images : Tie :=
  { kind := .hasMany, source := "Gallery", target := "Image", name := "images"
    correlate := "gallery", sourceKey := "id", targetKey := "gallery_id", fields := []
    constraints := .always }

example : (registry.relation "Gallery" "images").toOption = some (.tie images) := by rfl

def pivots (target name : String) : Tie :=
  { images with source := "Image", target, name, correlate := "image", targetKey := "image_id" }

def tagOf (source correlate : String) : Relation :=
  .tie { kind := .belongsTo, source, target := "Tag", name := "tag", correlate
         sourceKey := "tag_id", targetKey := "id", fields := [], constraints := .always }

def storedImage (id : Int64) : Entity :=
  .hydrated "Image" (.ofPairs [("id", .integer id), ("gallery_id", .integer 1)])

def galleryWith (id : Int64) : Entity :=
  (Entity.hydrated "Gallery" (.ofPairs [("id", .integer 1)])).setRelation "images"
    (.many ⟨"Image", [storedImage id]⟩)

def imageRow : Row :=
  .ofPairs [("id", .integer 1), ("gallery_id", .integer 1)]

def galleries : Query :=
  { Query.ofSchema gallery with tree := .cons "images" .nil .nil }

def titledGalleries : Query :=
  { Query.ofSchema gallery with tree := .cons "titles" .nil .nil }

/-- The rows of the first gallery and of its one image, for each selection with its own columns. -/
def titled : Database :=
  ⟨answeringEach [("SELECT * FROM \"gallery\"", [.ofPairs [("id", .integer 1)]]),
    ("SELECT \"title\", \"gallery_id\" FROM \"image\" WHERE \"gallery_id\" IN (1)",
      [.ofPairs [("title", .text "A"), ("gallery_id", .integer 1)]]),
    ("SELECT \"id\" FROM \"image\" WHERE \"gallery_id\" = 1", [.ofPairs [("id", .integer 7)]])],
    registry⟩

def imageWith (name model : String) (pivots : List Entity) : Entity :=
  (Entity.hydrated "Image" (.ofPairs [("id", .integer 1)])).setRelation name (.many ⟨model, pivots⟩)

def pivotRow (id tag : Int64) : Row :=
  .ofPairs [("id", .integer id), ("image_id", .integer 1), ("tag_id", .integer tag)]

def newPivot (tag : Int64) : Entity :=
  (Entity.new "ImageTag").set "tag_id" (.integer tag)

def taggedImage : Entity :=
  imageWith "images_tags" "ImageTag" [.hydrated "ImageTag" (pivotRow 1 2), newPivot 5]

/-- A database with the stored pivot of the first image and another one. -/
def tagged : Database :=
  database [pivotRow 1 2, pivotRow 3 9]

def labelRow (weight : Value) : Row :=
  .ofPairs [("image_id", .integer 1), ("tag_id", .integer 2), ("weight", weight)]

/-- Whole numbers that 64 bits do not hold. -/
def large : Value :=
  .float ⟨4891288408196988160⟩

def larger : Value :=
  .float ⟨4895792007824358656⟩

end RecordMapper.Gallery
