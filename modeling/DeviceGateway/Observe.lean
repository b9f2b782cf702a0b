import DeviceGateway.Session.Call

/-! Observations: a client without a session, known by its key on every call, watches a channel
under a token of its own. What it registers belongs to the client, so an observation on the same
token replaces the one before. -/

namespace DeviceGateway.Observe

def owner (client : ClientId) : String := "coap:" ++ client.text

def topic (channel subtopic : String) : String :=
  let base := "channels/" ++ channel ++ "/messages"
  if subtopic = "" then base
  else base ++ "/" ++ String.ofList (subtopic.toList.dropWhile (· == '/'))

def request (key channel subtopic : String) (action : Action) : Attempt Unit (ClientId × Channel) :=
  .call () (.identify key) fun
    | .error e => .done (.error (.authentication e))
    | .ok client =>
      match Topic.parseFilter (topic channel subtopic) with
      | .error e => .done (.error (.authorization (.topic e)))
      | .ok c => (requestGrant () client c action).andThen fun g => .done (.ok (client, g.channel))

def event (st : Settings) (m : Moment) (operation : Operation) (client : ClientId) (c : Channel) :
    Event :=
  .onChannel operation client c .coap st.instanceName m

def subscribe (st : Settings) (m : Moment) (key channel subtopic token : String) (queue : QueueId) :
    Attempt Unit Unit :=
  (request key channel subtopic .subscribe).andThen fun (client, c) =>
    .call () (.register (owner client) [(token, Topic.edgeFilter c)] queue) fun _ =>
      (emit () (event st m .subscribe client c)).bind fun _ => .done (.ok ())

def unsubscribe (st : Settings) (m : Moment) (key channel subtopic token : String) :
    Attempt Unit Unit :=
  (request key channel subtopic .unsubscribe).andThen fun (client, c) =>
    .call () (.deregisterFilter (owner client) token (Topic.edgeFilter c)) fun removed =>
      if removed then (emit () (event st m .unsubscribe client c)).bind fun _ => .done (.ok ())
      else .done (.ok ())

end DeviceGateway.Observe
