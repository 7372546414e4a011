import EasyNews.AlikeClients
import EasyNews.Verified.CommandReads
import EasyNews.Verified.HeaderFetching

/-! # A command alone, and the same command among others

Alone, a command has a copy of the store to itself. Among others its store changes between two reads, but
what its reader is asked for does not depend on these changes: groups keep their names, and nobody else
writes the headers of the articles it was made for.
-/

namespace EasyNews.Verified.AlikeCommands

open Session Realm ArticleStore SharedStore CommandReads HeaderFetching

/-! ## What the two have in common -/

/-- Every group of the store alone is in the store of the others, too. -/
structure GroupsAlike (command alone : ListGroupsCommand) : Prop where
  unique : (command.rbox.realm.groups.map NewsGroup.name).Nodup
  uniqueAlone : (alone.rbox.realm.groups.map NewsGroup.name).Nodup
  names : alone.rbox.realm.groups.map NewsGroup.name ⊆ command.rbox.realm.groups.map NewsGroup.name

theorem GroupsAlike.newsReaderGroups {command alone : ListGroupsCommand} (alike : GroupsAlike command alone)
    (groups : List NewsGroup) : GroupsAlike (command.newsReaderGroups groups) (alone.newsReaderGroups groups) := by
  have upserted := GroupRefresh.writeGroups_upserted alike.unique (command.draw groups)
  have upsertedAlone := GroupRefresh.writeGroups_upserted alike.uniqueAlone (alone.draw groups)
  rw [GroupRefresh.draw_map_fst] at upserted upsertedAlone
  refine ⟨upserted.unique, upsertedAlone.unique, fun name member => ?_⟩
  exact (upserted.names name).mpr (((upsertedAlone.names name).mp member).imp_left fun old => alike.names old)

theorem listGroups_alike : ListGroupsCommand.client.Alike ListGroupsCommand.client GroupsAlike where
  asks callback _ _ _ _ _ := by
    cases callback with
    | notification notification => cases notification <;> rfl
    | _ => rfl
  stays callback _ _ _ _ alike := by
    cases callback with
    | notification notification => cases notification <;> exact alike
    | groups groups => exact alike.newsReaderGroups groups
    | _ => exact alike

structure ArticlesAlike (command alone : ListGroupGetArticleIdsCommand) : Prop where
  groupName : command.groupName = alone.groupName
  unique : command.rbox.realm.UniqueIds
  uniqueAlone : alone.rbox.realm.UniqueIds
  articleIds : alone.rbox.realm.articleIds ⊆ command.rbox.realm.articleIds

theorem mem_newsReaderArticles {command : ListGroupGetArticleIdsCommand} (unique : command.rbox.realm.UniqueIds)
    (articleIds : List Text) {articleId : Text} :
    articleId ∈ (command.newsReaderArticles articleIds).rbox.realm.articleIds ↔
      articleId ∈ command.rbox.realm.articleIds ∨ articleId ∈ articleIds := by
  have grown := (writeArticles_grown unique command.group articleIds).1
  have ids : (command.newsReaderArticles articleIds).rbox.realm.articleIds = _ := grown.articleIds
  rw [ids, List.mem_append, fresh, FirstMention.mem_keys_firsts]
  by_cases known : articleId ∈ command.rbox.realm.articleIds <;> simp [known, requestsOf]

theorem ArticlesAlike.newsReaderArticles {command alone : ListGroupGetArticleIdsCommand}
    (alike : ArticlesAlike command alone) (articleIds : List Text) :
    ArticlesAlike (command.newsReaderArticles articleIds) (alone.newsReaderArticles articleIds) := by
  refine ⟨alike.groupName, ?_, ?_, fun articleId member => ?_⟩
  · exact (writeArticles_grown alike.unique command.group articleIds).1.uniqueIds alike.unique
  · exact (writeArticles_grown alike.uniqueAlone alone.group articleIds).1.uniqueIds alike.uniqueAlone
  · rw [mem_newsReaderArticles alike.unique]
    exact ((mem_newsReaderArticles alike.uniqueAlone articleIds).mp member).imp_left fun old => alike.articleIds old

theorem listArticles_alike :
    ListGroupGetArticleIdsCommand.client.Alike ListGroupGetArticleIdsCommand.client ArticlesAlike where
  asks callback _ _ _ _ alike := by
    cases callback with
    | notification notification => cases notification <;> simp [ListGroupGetArticleIdsCommand.client, alike.groupName]
    | _ => rfl
  stays callback _ _ _ _ alike := by
    cases callback with
    | notification notification => cases notification <;> exact alike
    | articles articleIds => exact alike.newsReaderArticles articleIds
    | _ => exact alike

/-- The articles that both have are the same, and so is what is stored of those the command is for. -/
structure HeadersAlike (group : GroupRef) (name : Text) (command alone : ArticleGetMultipleHeadersCommand) : Prop where
  groupId : command.groupId = alone.groupId
  articleIds : command.articleIds = alone.articleIds
  idx : command.idx = alone.idx
  files : Files command.rbox command.groupId group name
  filesAlone : Files alone.rbox alone.groupId group name
  records : ∀ articleId ∈ alone.articleIds,
    command.rbox.realm.recordOf articleId = alone.rbox.realm.recordOf articleId

section Headers

variable {dateFormatter : Text → Text → Option Date} {group : GroupRef} {name : Text}

theorem lookUp_of_files {rbox : ReaderBox} {groupId : Text} (files : Files rbox groupId group name) :
    ∃ record, (rbox.realm.findGroupById groupId).bind (rbox.realm.groups[·]?) = some record ∧ record.name = name := by
  obtain ⟨record, here, isName⟩ := Option.map_eq_some_iff.mp files.named
  exact ⟨record, by rw [files.found, Option.bind_some, here], isName⟩

theorem newsReaderArticleHeader_files {command : ArticleGetMultipleHeadersCommand}
    (files : Files command.rbox command.groupId group name) (articleId : Text) (header : Header) :
    let later := command.newsReaderArticleHeader dateFormatter articleId header
    Files later.rbox command.groupId group name ∧ ∀ other, later.rbox.realm.recordOf other =
      if other = articleId then
        some (ArticleGetMultipleHeadersCommand.writeHeader dateFormatter header
          (recordBefore command.rbox.realm group articleId))
      else command.rbox.realm.recordOf other := by
  have grown := writeArticleHeader_grown dateFormatter files.unique group articleId header
  have realm : (command.newsReaderArticleHeader dateFormatter articleId header).rbox.realm =
      (ArticleGetMultipleHeadersCommand.writeArticleHeader dateFormatter command.rbox.realm group articleId header).2 := by
    simp only [ArticleGetMultipleHeadersCommand.newsReaderArticleHeader, files.found]
  have sameNames := congrArg (·[group]?) (grown.groups NewsGroup.name fun _ _ => rfl)
  simp only [List.getElem?_map] at sameNames
  dsimp only
  refine ⟨⟨?_, ?_, ?_⟩, ?_⟩
  · rw [realm]
    exact grown.uniqueIds files.unique
  · rw [realm]
    exact (findGroupById_congr (grown.groups NewsGroup.id fun _ _ => rfl) _).trans files.found
  · rw [realm]
    exact sameNames.trans files.named
  · rw [realm]
    exact writeArticleHeader_recordOf dateFormatter files.unique group articleId header

theorem HeadersAlike.newsReaderArticleHeader {command alone : ArticleGetMultipleHeadersCommand}
    (alike : HeadersAlike group name command alone) (articleId : Text) (header : Header) :
    HeadersAlike group name (command.newsReaderArticleHeader dateFormatter articleId header)
      (alone.newsReaderArticleHeader dateFormatter articleId header) := by
  obtain ⟨sameIds, sameGroup, sameIdx⟩ := HeaderRuns.newsReaderArticleHeader_keeps dateFormatter command articleId header
  obtain ⟨aloneIds, aloneGroup, aloneIdx⟩ := HeaderRuns.newsReaderArticleHeader_keeps dateFormatter alone articleId header
  obtain ⟨files, records⟩ := @newsReaderArticleHeader_files dateFormatter group name command alike.files articleId header
  obtain ⟨filesAlone, recordsAlone⟩ :=
    @newsReaderArticleHeader_files dateFormatter group name alone alike.filesAlone articleId header
  refine ⟨?_, ?_, ?_, by rw [sameGroup]; exact files, by rw [aloneGroup]; exact filesAlone, ?_⟩
  · rw [sameGroup, aloneGroup, alike.groupId]
  · rw [sameIds, aloneIds, alike.articleIds]
  · rw [sameIdx, aloneIdx, alike.idx]
  · intro other member
    rw [aloneIds] at member
    rw [records, recordsAlone]
    split
    · rename_i isHere
      rw [recordBefore, recordBefore, ← isHere, alike.records other member]
    · exact alike.records other member

theorem HeadersAlike.nextRequest {command alone : ArticleGetMultipleHeadersCommand}
    (alike : HeadersAlike group name command alone) :
    command.nextRequest.2 = alone.nextRequest.2 ∧ HeadersAlike group name command.nextRequest.1 alone.nextRequest.1 := by
  obtain ⟨record, found, isName⟩ := lookUp_of_files alike.files
  obtain ⟨recordAlone, foundAlone, isNameAlone⟩ := lookUp_of_files alike.filesAlone
  simp only [ArticleGetMultipleHeadersCommand.nextRequest, found, foundAlone, isName, isNameAlone, alike.articleIds,
    alike.idx]
  cases alone.articleIds[alone.idx]? with
  | none => exact ⟨rfl, alike⟩
  | some articleId =>
    exact ⟨rfl, alike.groupId, rfl, rfl, alike.files, alike.filesAlone, alike.records⟩

theorem getHeaders_alike (dateFormatter : Text → Text → Option Date) (group : GroupRef) (name : Text) :
    (ArticleGetMultipleHeadersCommand.client dateFormatter).Alike
      (ArticleGetMultipleHeadersCommand.client dateFormatter) (HeadersAlike group name) where
  asks callback _ _ _ _ alike := by
    cases callback with
    | notification notification =>
      cases notification with
      | connected => exact alike.nextRequest.1
      | nextArticle => exact alike.nextRequest.1
      | _ => rfl
    | _ => rfl
  stays callback _ _ _ _ alike := by
    cases callback with
    | notification notification =>
      cases notification with
      | connected => exact alike.nextRequest.2
      | nextArticle => exact alike.nextRequest.2
      | _ => exact alike
    | articleHeader articleId header => exact alike.newsReaderArticleHeader articleId header
    | _ => exact alike

end Headers

/-- Alone, the command keeps all articles; among others, those of the present read. -/
structure ArticleAlike (groupId : Text) (group : GroupRef) (name : Text) (earlier : List Text)
    (command alone : ArticleCommand) : Prop where
  ofGroup : command.groupId = groupId
  ofGroupAlone : alone.groupId = groupId
  articleId : command.articleId = alone.articleId
  serves : Serves command.rbox.realm groupId group name
  servesAlone : Serves alone.rbox.realm groupId group name
  articles : alone.articles = earlier ++ command.articles

theorem startRequest_of_serves {command : ArticleCommand} {groupId : Text} {group : GroupRef} {name : Text}
    (ofGroup : command.groupId = groupId) (serves : Serves command.rbox.realm groupId group name) :
    command.startRequest = [.article name command.articleId] := by
  obtain ⟨record, here, isName⟩ := Option.map_eq_some_iff.mp serves.2
  simp only [ArticleCommand.startRequest, ofGroup, serves.1, Option.bind_some, here, isName]

theorem getArticle_alike (groupId : Text) (group : GroupRef) (name : Text) (earlier : List Text) :
    ArticleCommand.client.Alike ArticleCommand.client (ArticleAlike groupId group name earlier) where
  asks callback command alone _ _ alike := by
    cases callback with
    | notification notification =>
      cases notification with
      | connected =>
        change command.startRequest = alone.startRequest
        rw [startRequest_of_serves alike.ofGroup alike.serves,
          startRequest_of_serves alike.ofGroupAlone alike.servesAlone, alike.articleId]
      | _ => rfl
    | _ => rfl
  stays callback command alone _ _ alike := by
    cases callback with
    | notification notification => cases notification <;> exact alike
    | article article =>
      refine ⟨alike.ofGroup, alike.ofGroupAlone, alike.articleId, alike.serves, alike.servesAlone, ?_⟩
      change alone.articles ++ [article] = earlier ++ (command.articles ++ [article])
      rw [alike.articles, List.append_assoc]
    | _ => exact alike

end EasyNews.Verified.AlikeCommands
