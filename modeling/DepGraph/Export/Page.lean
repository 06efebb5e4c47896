/-
  DepGraph — graphs as a web page.

  The page holds the nodes and the edges of a graph as JSON within a script, and
  draws them when it is opened.

  * `pageTemplate`: the page, with a placeholder for the nodes and one for the
    edges.
  * `scriptJson`: JSON that does not end the script around it.
  * `pageText`: the page of a graph.
-/
import DepGraph.Diagram
import DepGraph.Json.Writer

namespace DepGraph

open DepGraph.Text

/-- The page around the data of a graph. -/
def pageTemplate : String := r##"<!DOCTYPE html>
<html lang="en">
  <head>
    <meta charset="utf-8" />
    <title>Source dependencies</title>
    <script src="https://cdnjs.cloudflare.com/ajax/libs/vis/4.21.0/vis-network.min.js" crossorigin="anonymous"></script>
    <style type="text/css">
      #graph {
        width: 100%;
        height: 90vh;
        border: 1px solid lightgray;
      }
    </style>
  </head>
  <body>
    <p>Zoom out to cluster outlying nodes, click a cluster to open it.</p>
    <div id="graph"></div>
    <script type="text/javascript">
      var nodes = __NODES;
      var edges = __EDGES;

      var container = document.getElementById("graph");
      var network = new vis.Network(container, { nodes: nodes, edges: edges }, {
        layout: { randomSeed: 8 },
        edges: { smooth: { enabled: true, type: "dynamic" } },
        physics: { stabilization: { iterations: 200 } }
      });

      var clusterIndex = 0;
      var clusters = [];
      var lastClusterZoomLevel = 0;
      var clusterFactor = 0.9;

      network.once("initRedraw", function () {
        if (lastClusterZoomLevel === 0) {
          lastClusterZoomLevel = network.getScale();
        }
      });

      network.on("zoom", function (params) {
        if (params.direction == "-") {
          if (params.scale < lastClusterZoomLevel * clusterFactor) {
            makeClusters(params.scale);
            lastClusterZoomLevel = params.scale;
          }
        } else {
          openClusters(params.scale);
        }
      });

      network.on("selectNode", function (params) {
        if (params.nodes.length == 1 && network.isCluster(params.nodes[0])) {
          network.openCluster(params.nodes[0]);
        }
      });

      function makeClusters(scale) {
        network.clusterOutliers({
          processProperties: function (clusterOptions, childNodes) {
            clusterIndex = clusterIndex + 1;
            var childrenCount = 0;
            for (var i = 0; i < childNodes.length; i++) {
              childrenCount += childNodes[i].childrenCount || 1;
            }
            clusterOptions.childrenCount = childrenCount;
            clusterOptions.label = "# " + childrenCount;
            clusterOptions.id = "cluster:" + clusterIndex;
            clusters.push({ id: "cluster:" + clusterIndex, scale: scale });
            return clusterOptions;
          },
          clusterNodeProperties: { borderWidth: 3, shape: "database" }
        });
      }

      function openClusters(scale) {
        var remaining = [];
        for (var i = 0; i < clusters.length; i++) {
          if (clusters[i].scale < scale) {
            network.openCluster(clusters[i].id);
            lastClusterZoomLevel = scale;
          } else {
            remaining.push(clusters[i]);
          }
        }
        clusters = remaining;
      }
    </script>
  </body>
</html>
"##

/-- JSON as it may stand within a script: no `</` is left in it. -/
def scriptJson (v : Json) : String := replaceAll "</" "<\\/" (v.render ⟨.spaced, true⟩)

/-- The node of a name. -/
def pageNode (name : String) : Json :=
  .object [("id", .string name), ("label", .string name), ("shape", .string "box")]

/-- The arrow of an edge. -/
def pageEdge (e : Edge) : Json :=
  .object [("from", .string e.1), ("to", .string e.2), ("arrows", .string "to")]

/-- The nodes of a page: every name that an edge touches, once. -/
def pageNodes (edges : List Edge) : Json :=
  .array ((Containment.endpoints edges).eraseDups.map pageNode)

/-- The arrows of a page. -/
def pageEdges (edges : List Edge) : Json := .array (edges.map pageEdge)

/-- The page of a graph. -/
def pageText (d : Diagram) : String :=
  let withNodes := replaceAll "__NODES" (scriptJson (pageNodes d.edges)) pageTemplate
  replaceAll "__EDGES" (scriptJson (pageEdges d.edges)) withNodes

end DepGraph
