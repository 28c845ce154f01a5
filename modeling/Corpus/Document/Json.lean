/-
Corpus/Document/Json.lean

Documents and image patches as JSON objects, with the image fields beside the others.
-/
import Corpus.Document.Basic
import Corpus.Json.Printer

namespace Corpus

/-- The image fields. -/
def ImageMetadata.members (m : ImageMetadata) : List (String × Json.Value) :=
  [ ("has_images", .bool m.hasImages),
    ("image_count", .nat m.imageCount.toNat),
    ("first_image", .text m.firstImage),
    ("all_images", .array (m.allImages.map .text)) ]

/-- The fields of a document in the order they are written, the link to an article only
where there is one. -/
def Document.members (d : Document) : List (String × Json.Value) :=
  [ ("id", .text d.id),
    ("filename", .text d.filename),
    ("content", .text d.content),
    ("file_type", .text d.fileType),
    ("file_size", .count d.fileSize),
    ("file_path", .text d.filePath),
    ("source", .text d.source.word),
    ("folder_root", .text d.folderRoot) ] ++
    (d.zimArticleUrl.map fun url => ("zim_article_url", .text url)).toList ++
    d.images.members

/-- The fields of a patch. -/
def ImagePatch.members (p : ImagePatch) : List (String × Json.Value) :=
  ("id", .text p.id) :: p.images.members

end Corpus
