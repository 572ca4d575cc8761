/-! A deployment file to start from. -/
namespace Stevedore.Declaration

def sampleLines : List String :=
  ["# Fleetyard deployment file",
   "#",
   "# Discovery order: --config, $FLEETYARD_CONFIG_PATH, ./fleetyard.yaml,",
   "# ~/.fleetyard/config.yaml. $FLEETYARD_STAGING_ROOT overrides stagingRoot.",
   "",
   "name: default",
   "version: 1.31.0",
   "",
   "# Rendered profiles are read from <stagingRoot>/<name>/<profile name>",
   "# stagingRoot: /var/lib/fleetyard/staging  (default: ~/.fleetyard/staging)",
   "",
   "# Namespace for services that declare no location",
   "location: spinnaker",
   "",
   "account:",
   "  name: local-cluster",
   "  # context: my-kube-context",
   "  # kubeconfigFile: ~/.kube/config",
   "",
   "artifacts:",
   "  registry: us-docker.pkg.dev/spinnaker-community/docker",
   "  version: 1.31.0",
   "  pins: \x7b\x7d",
   "    # gate:",
   "    #   version: local:1.32.0-rc1",
   "",
   "monitoring:",
   "  canonicalName: spin-monitoring-daemon",
   "  serviceType: monitoring-daemon",
   "  artifactName: monitoring-daemon",
   "  runsOnJvm: false",
   "  profileNames:",
   "    - \"registry/\x7bservice\x7d.yml\"",
   "  settings:",
   "    port: 8008",
   "    enabled: false",
   "  profiles:",
   "    - name: registry/gate.yml",
   "      outputFile: /opt/spinnaker-monitoring/registry/gate.yml",
   "",
   "services:",
   "  - canonicalName: spin-gate",
   "    serviceType: gate",
   "    artifactName: gate",
   "    preStop: true",
   "    settings:",
   "      port: 8084",
   "      healthEndpoint: /health",
   "      monitored: true",
   "    profiles:",
   "      - name: gate.yml",
   "        outputFile: /opt/spinnaker/config/gate.yml",
   "      - name: spinnaker.yml",
   "        outputFile: /opt/spinnaker/config/spinnaker.yml",
   "",
   "  - canonicalName: spin-deck",
   "    serviceType: deck",
   "    artifactName: deck",
   "    runsOnJvm: false",
   "    settings:",
   "      port: 9000",
   "    profiles:",
   "      - name: settings.js",
   "        outputFile: /opt/deck/html/settings.js",
   "",
   "environment:",
   "  sidecars: \x7b\x7d",
   "  initContainers: \x7b\x7d",
   "  hostAliases: \x7b\x7d",
   "  customSizing:",
   "    gate:",
   "      replicas: 1",
   "      requests:",
   "        cpu: 500m",
   "        memory: 1Gi"]

def sample : String := String.join (sampleLines.map fun line => line ++ "\n")

end Stevedore.Declaration
