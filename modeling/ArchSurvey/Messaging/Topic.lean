import ArchSurvey.Declaration.Reader
import ArchSurvey.Project.Parts
import ArchSurvey.Route.Controller
import ArchSurvey.Scan.Scanner
import ArchSurvey.Scan.Tiers
import ArchSurvey.Source.Path
import ArchSurvey.Text.LetterCase

/-!
# Topics

The topics that sources send messages to and take them from.  In Java annotations name them and a
template sends to them; in Python consumers subscribe to them and producers send to them.
-/

namespace ArchSurvey.Messaging.Topic

open Text
open Text.Pattern (concat oneOf opt literal group many some1 blanks noneOf is anyOf wordChar
  wordEdge word)
open Declaration (Heading splitArguments)

/-- The broker of all topics. -/
def brokerName : String := "Kafka"

/-- A call of a template that sends to the topic in group 1. -/
def templateSend : Pattern :=
  concat
    [many wordChar, word "kafkatemplate", blanks, is '.', blanks, word "send", blanks, is '(',
      blanks, is '"', group 1 (some1 (noneOf "\"")), is '"']

/-- The construction of a consumer, its arguments in group 1. -/
def consumerCall : Pattern :=
  concat [literal "KafkaConsumer", blanks, is '(', group 1 (many (noneOf ")")), is ')']

/-- A subscription, its topics in group 1. -/
def subscribeCall : Pattern :=
  concat
    [literal ".subscribe", blanks, is '(', blanks,
      opt (concat [literal "topics", blanks, is '=', blanks]), anyOf "[(",
      group 1 (many (noneOf "])")), anyOf "])"]

/-- A call that sends to the topic in group 1. -/
def produceCall : Pattern :=
  concat
    [is '.', oneOf [literal "send", literal "produce"], blanks, is '(', blanks,
      opt (concat [literal "topic", blanks, is '=', blanks]), anyOf "'\"",
      group 1 (some1 (noneOf "'\"")), anyOf "'\""]

/-- A quoted text, in group 1. -/
def quoted : Pattern :=
  concat [anyOf "'\"", group 1 (some1 (noneOf "'\"")), anyOf "'\""]

/-- The start of an argument with a name. -/
def namedArgument : Pattern :=
  concat [wordEdge, some1 wordChar, blanks, is '=']

/-- A flow of messages to a subscriber. -/
def subscribed (service : String) (topic : List Char) (messageType : Option String) :
    MessageFlow :=
  { subscriber := some service, topic := String.ofList topic, messageType,
    broker := some brokerName }

/-- A flow of messages from a publisher. -/
def published (service : String) (topic : List Char) (messageType : Option String) :
    MessageFlow :=
  { publisher := some service, topic := String.ofList topic, messageType,
    broker := some brokerName }

/-- The type of the first of some parameters. -/
def firstParameterType (parameters : List Char) : Option String := do
  let first ← (splitArguments (Route.Controller.insideParentheses parameters)).head?
  let (type, _) ← cutLastBlank (trim (Heading.ofText first).rest)
  some (String.ofList (trim type))

/-- The topics that the annotations of a method subscribe to. -/
def listenedTopics (member : Declaration.Declared) : List (List Char) :=
  match member.note? "KafkaListener" with
  | none => []
  | some listener =>
      let topics := listener.stringsOf "topics"
      if topics.isEmpty then listener.stringsOf "value" else topics

/-- The flows that the annotations of a member stand for. -/
def flowsOfMember (service : String) (member : Declaration.Declared) : List MessageFlow :=
  match member.member with
  | .method returnType _ parameters =>
      let taken := (firstParameterType parameters).getD "Object"
      let answer := (member.note? "SendTo").bind fun note =>
        note.stringOf "value"
      ((listenedTopics member).map fun topic => subscribed service topic (some taken)) ++
        answer.toList.map fun topic => published service topic (some returnType)
  | _ => []

/-- The flows of a Java source. -/
def flowsOfDeclarations (service : String) (text : List Char) : List MessageFlow :=
  let source := Declaration.readSource text
  let annotated := (Declaration.typesOf source).flatMap fun (_, name) =>
    (Declaration.membersOf source name).flatMap (flowsOfMember service)
  annotated ++
    (templateSend.searchAll text).map fun found => published service (found.group 1) none

/-- The quoted texts in a text. -/
def quotedTexts (text : List Char) : List (List Char) :=
  (quoted.searchAll text).map fun found => found.group 1

/-- The arguments before the first one with a name. -/
def positional (arguments : List Char) : List Char :=
  match namedArgument.search arguments with
  | some found => found.before
  | none => arguments

/-- The flows of a Python source, which has to mention the broker. -/
def flowsOfCalls (service : String) (text : List Char) : List MessageFlow :=
  if !occursIn "kafka".toList (lower text) then []
  else
    let constructed := (consumerCall.searchAll text).flatMap fun found =>
      quotedTexts (positional (found.group 1))
    let added := (subscribeCall.searchAll text).flatMap fun found => quotedTexts (found.group 1)
    ((constructed ++ added).map fun topic => subscribed service topic none) ++
      (produceCall.searchAll text).map fun found => published service (found.group 1) none

/-- The flows of a source by its extension. -/
def flowsOf (service path : String) (text : List Char) : List MessageFlow :=
  match Path.extension? path with
  | some "java" => flowsOfDeclarations service text
  | some "py" => flowsOfCalls service text
  | _ => []

/-- How sources are read. -/
def engine (service : String) : TierEngine Findings :=
  { accepts := fun path => .finished (!Source.isTestPath path)
    fallback := fun path text => .finished (.ok [{ flows := flowsOf service path text }]) }

/-- The relationships of a service to the broker, one for each direction of its flows. -/
def relationshipsOf (service broker : String) (flows : List MessageFlow) : List Relationship :=
  let publishes :=
    if flows.any fun flow => flow.publisher.isSome then
      [{ source := service, target := broker, kind := .publishes,
         description := some "Publishes messages", technology := some brokerName }]
    else []
  let subscribes :=
    if flows.any fun flow => flow.subscriber.isSome then
      [{ source := service, target := broker, kind := .subscribes,
         description := some "Consumes messages",
         technology := some (brokerName ++ " consumer") }]
    else []
  publishes ++ subscribes

/-- The findings with the service, the broker and their relationships, if messages flow. -/
def withTopology (context : Context) (findings : Findings) : Findings :=
  if findings.flows.isEmpty then findings
  else
    let broker := Project.broker brokerName
    let service := Project.own context "Kafka client"
    { findings with
      components := findings.components ++ [service, broker]
      relationships :=
        findings.relationships ++ relationshipsOf service.id broker.id findings.flows }

/-- The files that are read. -/
def patterns : List String :=
  ["**/*.java", "**/*.py"]

/-- Scans the sources of a project. -/
def scan (context : Context) : Except ScanError ScanResult := do
  let files ← context.findFilesAny patterns
  let (findings, stats) := Sweep.read (engine (Project.ownId context)) context files
  return Sweep.finish "kafka-consumer" (withTopology context findings) stats

/-- The scanner of topics. -/
def scanner : Scanner :=
  { id := "kafka-consumer"
    title := "Kafka Messaging"
    languages := ["java", "python"]
    patterns
    priority := 70
    applicability :=
      .or
        (.or
          (.or
            (.hasAnyDependency ["spring-kafka", "kafka-clients", "kafka-python", "confluent-kafka"])
            (.fileContains "**/*.java" "KafkaListener"))
          (.fileContains "**/*.java" "KafkaTemplate"))
        (.fileContains "**/*.py" "kafka")
    scan := fun context => .finished (.ofOutcome "kafka-consumer" (scan context)) }

end ArchSurvey.Messaging.Topic
