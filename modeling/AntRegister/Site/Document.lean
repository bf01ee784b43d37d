import AntRegister.Calendar.Document
import AntRegister.Site.Basic
/-!
The site data as a JSON document, and the JSON form of site entries.
-/

namespace AntRegister

open Calendar (Instant)

namespace SiteAnt

def ofJson? (j : Json) : Option SiteAnt := do
  let fs ← j.fields? ["ant", "suggestedContent", "legacy", "tweeted", "tweetedAt"]
  return {
    content := ← fs.required? "ant" Json.asText?
    suggested := ← fs.optional? "suggestedContent" Json.asText?
    legacy := ← fs.optional? "legacy" Json.asBool?
    tweeted := ← fs.optional? "tweeted" Json.asBool?
    tweetedAt := ← fs.optional? "tweetedAt" Instant.ofJson?
  }

def toJson (a : SiteAnt) : Json :=
  .object <|
    [("ant", .text a.content)]
    ++ Json.memberIf "suggestedContent" .text a.suggested
    ++ Json.memberIf "legacy" .bool a.legacy
    ++ Json.memberIf "tweeted" .bool a.tweeted
    ++ Json.memberIf "tweetedAt" Instant.toJson a.tweetedAt

end SiteAnt

namespace Site

def ofJson? (j : Json) : Option Site := do
  let fs ← j.fields? ["version", "ants"]
  return {
    version := ← fs.defaulted? "version" "" Json.asText?
    ants := ← fs.required? "ants" (Json.asList? SiteAnt.ofJson?)
  }

def toJson (s : Site) : Json :=
  .object [("version", .text s.version), ("ants", .array (s.ants.map SiteAnt.toJson))]

end Site

def SiteEntry.toJson (e : SiteEntry) : Json :=
  .object [
    ("antContent", .text e.content),
    ("originalSuggestionContent", .text e.suggestion),
    ("ordering", .integer e.ordering),
    ("tweeted", .bool e.tweeted),
    ("tweetedAt", Json.orNull Instant.toJson e.tweetedAt)]

end AntRegister
