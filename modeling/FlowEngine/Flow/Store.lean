import FlowEngine.Flow.Graph
import FlowEngine.Log.Record
import FlowEngine.Service.Connector

/-!
# Stores of flows and connectors

Flows and connectors are looked up by id. A later one takes the place of an earlier one with its id,
which is told in the log.
-/

namespace FlowEngine

abbrev FlowStore := Entries FlowGraph

namespace FlowStore

def add (store : FlowStore) (graph : FlowGraph) : FlowStore := Entries.put store graph.id graph

def addWarnings (store : FlowStore) (graph : FlowGraph) : List Log.Line :=
  if Entries.has store graph.id then
    [Log.line .warning Log.Logger.flowStore ("Replacing flow '" ++ graph.id ++ "'")]
  else []

def ofList (graphs : List FlowGraph) : FlowStore := graphs.foldl add []

def listWarnings (store : FlowStore) : List FlowGraph → List Log.Line
  | [] => []
  | graph :: rest => addWarnings store graph ++ listWarnings (add store graph) rest

end FlowStore

abbrev ConnectorStore := Entries Connector

namespace ConnectorStore

def add (store : ConnectorStore) (c : Connector) : ConnectorStore := Entries.put store c.id c

def addWarnings (store : ConnectorStore) (c : Connector) : List Log.Line :=
  if Entries.has store c.id then
    [Log.line .warning Log.Logger.connectorStore ("Replacing connector '" ++ c.id ++ "'")]
  else []

def ofList (connectors : List Connector) : ConnectorStore := connectors.foldl add []

def listWarnings (store : ConnectorStore) : List Connector → List Log.Line
  | [] => []
  | c :: rest => addWarnings store c ++ listWarnings (add store c) rest

end ConnectorStore

end FlowEngine
